/-
# What every Lightning ledger satisfies

`LnInv` is about the ledger and the node together:

* the hold table agrees with the node, an order has no draft beside it,
* each order row is sound (`OrderInv`): its amounts go with its escrow, from the
  account gate on it has an invoice over exactly its payout, it is paid out for
  only when its escrow is on record as settled, …
* a settlement asked for outside a close is of the escrow of a remitted order.

Each part is proved kept by every edge, once.
-/
import LnPay.LnTransactions

namespace LnPay

variable {c : EdgeCtx} {id id' : OrderId} {db db' : LnDb}

/-! ## Rows along edges -/

/-- `plan` leaves the rows that are there alone and adds one that is being made. -/
theorem find_planned {p : HoldPlan} {hash : Hash} {attempt : ℕ} {now : ℤ} {e : Effect LnEffect}
    {holds : KeyedTable HoldRow.paymentHash}
    (hins : db.holds.insert (p.row hash attempt now) = some holds) (h : Hash) :
    ({ db with holds := holds }.enqueue e).holds.find h =
      if hash = h then some (p.row hash attempt now) else db.holds.find h := by
  rw [Db.enqueue_holds]
  exact KeyedTable.find_insert hins h

/-- No edge removes a row, and a row only moves forward. -/
theorem LnEdge.find_later (he : LnEdge c id db db') {h : Hash} {r : HoldRow}
    (hr : db.holds.find h = some r) : ∃ r', db'.holds.find h = some r' ∧ r.Later r' := by
  have hkept : ∀ {p : HoldPlan} {hash : Hash} {attempt : ℕ}
      {holds : KeyedTable HoldRow.paymentHash},
      db.holds.insert (p.row hash attempt c.now) = some holds →
      ({ db with holds := holds }.enqueue (.holdCreate hash)).holds.find h = some r := by
    intro p hash attempt holds hins
    rw [find_planned hins, if_neg, hr]
    rintro rfl
    rw [show db.holds.find hash = none from KeyedTable.find_of_insert hins] at hr
    cases hr
  cases he with
  | insertOrder => exact ⟨r, hr, .refl r⟩
  | insertDraft => exact ⟨r, hr, .refl r⟩
  | deleteDraft => exact ⟨r, hr, .refl r⟩
  | plan _ _ _ _ _ _ _ hins => exact ⟨r, hkept hins, .refl r⟩
  | planOther _ _ _ _ _ _ _ hins => exact ⟨r, hkept hins, .refl r⟩
  | dispose => exact ⟨r, by rw [dispose_holds, hr], .refl r⟩
  | requestPayout => exact ⟨r, by rw [LnCtx.requestPayout, Db.enqueue_holds, hr], .refl r⟩
  | setHold hs => exact hs.find_later hr
  | updateOrder => exact ⟨r, hr, .refl r⟩
  | beginClose => exact ⟨r, by rw [Db.enqueue_holds]; exact hr, .refl r⟩

/-- The rows after an edge: as before, newly planned, or written as the context allows. -/
theorem LnEdge.find_cases (he : LnEdge c id db db') {h : Hash} {r' : HoldRow}
    (hr' : db'.holds.find h = some r') : db.holds.find h = some r' ∨
      (db.holds.find h = none ∧ ∃ p attempt, r' = HoldPlan.row p h attempt c.now ∧
        p.Derives c.env.keys db h attempt ∧ (Plannable db p ∨ p.purpose ∉ lnHoldPurposes)) ∨
      ∃ r, db.holds.find h = some r ∧ r.Later r' ∧ c.touch r r' ∧ Agrees c.node r' := by
  have hplanned : ∀ {p : HoldPlan} {hash : Hash} {attempt : ℕ}
      {holds : KeyedTable HoldRow.paymentHash},
      db.holds.insert (p.row hash attempt c.now) = some holds →
      p.Derives c.env.keys db hash attempt → (Plannable db p ∨ p.purpose ∉ lnHoldPurposes) →
      ({ db with holds := holds }.enqueue (.holdCreate hash)).holds.find h = some r' →
      db.holds.find h = some r' ∨
        (db.holds.find h = none ∧ ∃ p attempt, r' = HoldPlan.row p h attempt c.now ∧
          p.Derives c.env.keys db h attempt ∧ (Plannable db p ∨ p.purpose ∉ lnHoldPurposes)) := by
    intro p hash attempt holds hins hd hp hf
    rw [find_planned hins] at hf
    split at hf
    · rename_i he
      subst he
      exact .inr ⟨KeyedTable.find_of_insert hins, p, attempt, (Option.some.inj hf).symm, hd, hp⟩
    · exact .inl hf
  cases he with
  | insertOrder => exact .inl hr'
  | insertDraft => exact .inl hr'
  | deleteDraft => exact .inl hr'
  | plan _ _ _ _ _ hp hd hins => exact (hplanned hins hd (.inl hp) hr').imp_right .inl
  | planOther _ _ _ _ _ hp hd hins => exact (hplanned hins hd (.inr hp) hr').imp_right .inl
  | dispose => exact .inl (by rwa [dispose_holds] at hr')
  | requestPayout => exact .inl (by rwa [LnCtx.requestPayout, Db.enqueue_holds] at hr')
  | setHold hs =>
    refine (hs.find_cases hr').imp_right fun h => .inr ?_
    obtain ⟨r, hr, hl, ht, hag⟩ := h
    exact ⟨r, hr, hl, ht.1, hag⟩
  | updateOrder => exact .inl hr'
  | beginClose =>
    rw [Db.enqueue_holds] at hr'
    exact .inl hr'

/-- The table goes on agreeing with the node. -/
theorem LnEdge.holdsAgree (he : LnEdge c id db db') (h : HoldsAgree c.node db.holds) :
    HoldsAgree c.node db'.holds := by
  intro hash r' hr'
  rcases he.find_cases hr' with hr | ⟨-, p, attempt, rfl, -⟩ | ⟨r, -, -, -, hag⟩
  · exact h hash r' hr
  · trivial
  · exact hag

/-! ## The order after an edge -/

/-- The row of an order after an edge: as before, new, changed by one step, or about to be closed. -/
theorem LnEdge.order_cases (he : LnEdge c id db db') {o' : LnOrderRow}
    (ho' : getOrder id' db' = some o') : getOrder id' db = some o' ∨
      (getOrder id' db = none ∧ getDraft id' db = none ∧ ∃ n : NewOrder, o' = n.row c.now) ∨
      (∃ o p, getOrder id' db = some o ∧ db'.holds = db.holds ∧ db'.effects = db.effects ∧
        OrderStep c db o p ∧ o' = o.restamp p c.now) ∨
      ∃ o reason, getOrder id' db = some o ∧ o.pendingClose = none ∧
        canTransition o.state reason.rule.terminal = true ∧
        (reason.isUnpaid → ∀ h, o.escrowHash = some h → c.unpaid h) ∧ c.begins ∧
        o' = o.restamp { o with pendingClose := some reason } c.now := by
  by_cases hid : id' = id
  · subst hid
    cases he with
    | insertOrder n orders hid hd hins =>
      have hfind := (KeyedTable.find_insert hins id').symm.trans ho'
      rw [if_pos (show (n.row c.now).orderId = id' from hid)] at hfind
      refine .inr (.inl ⟨?_, hd, n, (Option.some.inj hfind).symm⟩)
      subst hid
      exact KeyedTable.find_of_insert hins
    | insertDraft => exact .inl ho'
    | deleteDraft => exact .inl ho'
    | plan => exact .inl (by rwa [getOrder, Db.enqueue_track] at ho')
    | planOther => exact .inl (by rwa [getOrder, Db.enqueue_track] at ho')
    | dispose => exact .inl (by rwa [getOrder, dispose_track] at ho')
    | requestPayout => exact .inl (by rwa [getOrder, LnCtx.requestPayout, Db.enqueue_track] at ho')
    | setHold hs =>
      obtain ⟨_, _, -, -, -, -, rfl⟩ := hs
      exact .inl ho'
    | updateOrder o patch ho hs =>
      rw [getOrder_setOrder, if_pos rfl, ho] at ho'
      exact .inr (.inr (.inl ⟨o, patch o, ho, rfl, rfl, hs, (Option.some.inj ho').symm⟩))
    | beginClose o reason ho hp ht hu hb =>
      rw [getOrder, Db.enqueue_track] at ho'
      have ho' := (getOrder_setOrder ..).symm.trans ho'
      rw [if_pos rfl, ho] at ho'
      exact .inr (.inr (.inr ⟨o, reason, ho, hp, ht, hu, hb, (Option.some.inj ho').symm⟩))
  · exact .inl (by rwa [he.getOrder_of_ne hid] at ho')

/-- No edge removes an order. -/
theorem LnEdge.getOrder_ne_none (he : LnEdge c id db db') (h : getOrder id' db ≠ none) :
    getOrder id' db' ≠ none := by
  by_cases hid : id' = id
  · subst hid
    cases he with
    | insertOrder n orders hid hd hins =>
      intro hn
      have hfind := (KeyedTable.find_insert hins id').symm.trans hn
      rw [if_pos (show (n.row c.now).orderId = id' from hid)] at hfind
      cases hfind
    | insertDraft => exact h
    | deleteDraft => exact h
    | plan => rwa [getOrder, Db.enqueue_track]
    | planOther => rwa [getOrder, Db.enqueue_track]
    | dispose => rwa [getOrder, dispose_track]
    | requestPayout => rwa [getOrder, LnCtx.requestPayout, Db.enqueue_track]
    | setHold hs =>
      obtain ⟨_, _, -, -, -, -, rfl⟩ := hs
      exact h
    | updateOrder =>
      rw [getOrder_setOrder, if_pos rfl]
      simpa using h
    | beginClose =>
      rw [getOrder, Db.enqueue_track]
      refine fun hn => h ?_
      have hn := (getOrder_setOrder ..).symm.trans hn
      rw [if_pos rfl] at hn
      simpa using hn
  · rwa [he.getOrder_of_ne hid]

/-- How an edge changes an order: not at all, by one step, or by the beginning of a close. -/
inductive OrderNext (c : EdgeCtx) (db : LnDb) (o : LnOrderRow) : LnOrderRow → Prop
  | same : OrderNext c db o o
  | step (p : LnOrderRow) (hs : OrderStep c db o p) : OrderNext c db o (o.restamp p c.now)
  | close (reason : LnCloseReason) (hp : o.pendingClose = none)
      (ht : canTransition o.state reason.rule.terminal = true)
      (hu : reason.isUnpaid → ∀ h, o.escrowHash = some h → c.unpaid h) (hb : c.begins) :
      OrderNext c db o (o.restamp { o with pendingClose := some reason } c.now)

/-- What becomes of an order. -/
theorem LnEdge.order_next (he : LnEdge c id db db') {o : LnOrderRow}
    (ho : getOrder id' db = some o) :
    ∃ o', getOrder id' db' = some o' ∧ OrderNext c db o o' := by
  have hne : getOrder id' db' ≠ none := he.getOrder_ne_none (by simp [ho])
  obtain ⟨o', ho'⟩ := Option.ne_none_iff_exists'.mp hne
  refine ⟨o', ho', ?_⟩
  rcases he.order_cases ho' with h | ⟨hn, -⟩ | ⟨o₁, p, h, -, -, hs, rfl⟩ |
    ⟨o₁, reason, h, hp, ht, hu, hb, rfl⟩
  · obtain rfl := Option.some.inj (ho.symm.trans h)
    exact .same
  · rw [ho] at hn
    cases hn
  · obtain rfl := Option.some.inj (ho.symm.trans h)
    exact .step p hs
  · obtain rfl := Option.some.inj (ho.symm.trans h)
    exact .close reason hp ht hu hb

/-- A draft is there before an edge, or the edge finds no order under its id and makes none. -/
theorem LnEdge.draft_cases (he : LnEdge c id db db') {d : LnDraftRow}
    (hd : getDraft id' db' = some d) : getDraft id' db = some d ∨
      (getOrder id' db = none ∧ getOrder id' db' = none) := by
  by_cases hid : id' = id
  · subst hid
    cases he with
    | insertDraft _ _ _ ho => exact .inr ⟨ho, ho⟩
    | deleteDraft =>
      rw [getDraft_deleteDraft] at hd
      cases hd
    | insertOrder => exact .inl hd
    | plan => exact .inl (by rwa [getDraft, Db.enqueue_track] at hd)
    | planOther => exact .inl (by rwa [getDraft, Db.enqueue_track] at hd)
    | dispose => exact .inl (by rwa [getDraft, dispose_track] at hd)
    | requestPayout => exact .inl (by rwa [getDraft, LnCtx.requestPayout, Db.enqueue_track] at hd)
    | setHold hs =>
      obtain ⟨_, _, -, -, -, -, rfl⟩ := hs
      exact .inl hd
    | updateOrder => exact .inl hd
    | beginClose => exact .inl (by rwa [getDraft, Db.enqueue_track] at hd)
  · exact .inl (by rwa [he.getDraft_of_ne hid] at hd)

/-- What an edge adds to the queue: the two effects of an invoice, or one about its order. -/
theorem LnEdge.mem_effects (he : LnEdge c id db db') {e : Effect LnEffect}
    (h : e ∈ db'.effects) : e ∈ db.effects ∨ (∃ hash, e = .holdCreate hash) ∨
      (∃ hash a, e = .holdDispose hash a ∧ (a = .settle → ∃ o, getOrder id db = some o ∧
        o.state = .remitted ∧ o.pendingClose = none ∧ o.escrowHash = some hash)) ∨
      e = .own (.payout id) ∨ e = .own (.close id) := by
  cases he with
  | insertOrder => exact .inl h
  | insertDraft => exact .inl h
  | deleteDraft => exact .inl h
  | plan => exact (Db.mem_enqueue h).imp_right fun h => .inl ⟨_, h⟩
  | planOther => exact (Db.mem_enqueue h).imp_right fun h => .inl ⟨_, h⟩
  | dispose hash a hsettle =>
    exact (Db.mem_enqueue h).imp_right fun h => .inr (.inl ⟨hash, a, h, hsettle⟩)
  | requestPayout => exact (Db.mem_enqueue h).imp_right fun h => .inr (.inr (.inl h))
  | setHold hs =>
    obtain ⟨_, _, -, -, -, -, rfl⟩ := hs
    exact .inl h
  | updateOrder => exact .inl h
  | beginClose => exact (Db.mem_enqueue h).imp_right fun h => .inr (.inr (.inr h))

/-! ## Sound order rows -/

/-- The escrow that goes with a payout: the order's own invoice over the derived amount. -/
structure EscrowOf (db : LnDb) (o : LnOrderRow) (payoutSat : ℕ) (r : HoldRow) : Prop where
  pos : 0 < payoutSat
  payout : o.payoutSat = some payoutSat
  hash : o.escrowHash = some r.paymentHash
  found : db.holds.find r.paymentHash = some r
  purpose : r.purpose = .lnEscrow
  orderId : r.orderId = o.orderId
  amount : r.amountSat = computeEscrowSat payoutSat

/-- The states behind the approval of the claim, as far as they keep the escrow. -/
def OrderState.hasEscrow (s : OrderState) : Prop :=
  s = .verified ∨ s = .escrowed ∨ s = .invoiced ∨ s = .remitted ∨ s = .paid ∨ s = .sponsorWins

/-- The states behind the account gate, as far as they keep the invoice. -/
def OrderState.hasInvoice (s : OrderState) : Prop :=
  s = .invoiced ∨ s = .remitted ∨ s = .paid ∨ s = .sponsorWins

/-- A sound order row. -/
structure OrderInv (env : LnEnv) (db : LnDb) (o : LnOrderRow) : Prop where
  /-- payout and escrow are fixed together -/
  amounts : (o.payoutSat = none ∧ o.escrowHash = none) ∨ ∃ p r, EscrowOf db o p r
  escrowed : o.state.hasEscrow → o.escrowHash ≠ none
  invoice : o.state.hasInvoice → ∃ bolt11, o.sponsorInvoice = some bolt11 ∧ o.Exact env bolt11
  closing : ∀ reason, o.pendingClose = some reason → canTransition o.state reason.rule.terminal
  collected : o.payable → ∃ r, o.escrowHash = some r.paymentHash ∧
    db.holds.find r.paymentHash = some r ∧ r.status = .settled
  manual : isManualPayout o.payoutError = true → o.payable

/-- The escrow's row is kept as the rows move forward. -/
theorem EscrowOf.mono {o : LnOrderRow} {p : ℕ} {r : HoldRow} (h : EscrowOf db o p r)
    (hl : ∀ h r, db.holds.find h = some r → ∃ r', db'.holds.find h = some r' ∧ r.Later r') :
    ∃ r', EscrowOf db' o p r' := by
  obtain ⟨r', hr', hlater⟩ := hl _ _ h.found
  exact ⟨r', h.pos, h.payout, h.hash.trans (by rw [hlater.paymentHash]),
    by rw [hlater.paymentHash]; exact hr', hlater.purpose.trans h.purpose,
    hlater.orderId.trans h.orderId, hlater.amountSat.trans h.amount⟩

theorem OrderInv.mono {env : LnEnv} {o : LnOrderRow} (h : OrderInv env db o)
    (hl : ∀ h r, db.holds.find h = some r → ∃ r', db'.holds.find h = some r' ∧ r.Later r') :
    OrderInv env db' o where
  amounts := h.amounts.imp_right fun ⟨p, _, hr⟩ => ⟨p, hr.mono hl⟩
  escrowed := h.escrowed
  invoice := h.invoice
  closing := h.closing
  collected := by
    intro hp
    obtain ⟨r, hash, hr, hs⟩ := h.collected hp
    obtain ⟨r', hr', hlater⟩ := hl _ _ hr
    exact ⟨r', hash.trans (by rw [hlater.paymentHash]), by rw [hlater.paymentHash]; exact hr',
      (hlater.status_of_final (.inl hs)).trans hs⟩
  manual := h.manual

/-- A new order is sound. -/
theorem orderInv_row (env : LnEnv) (n : NewOrder) (now : ℤ) : OrderInv env db (n.row now) where
  amounts := .inl ⟨rfl, rfl⟩
  escrowed h := by simp [OrderState.hasEscrow, NewOrder.row] at h
  invoice h := by simp [OrderState.hasInvoice, NewOrder.row] at h
  closing _ h := by cases h
  collected h := by simp [LnOrderRow.payable, NewOrder.row] at h
  manual h := by simp [isManualPayout, NewOrder.row] at h

/-- What the store puts back or stamps does not matter. -/
theorem OrderInv.restamp {env : LnEnv} {o p : LnOrderRow} (hid : p.orderId = o.orderId)
    (h : OrderInv env db p) (now : ℤ) : OrderInv env db (o.restamp p now) where
  amounts := h.amounts.imp_right fun ⟨n, r, hr⟩ =>
    ⟨n, r, hr.pos, hr.payout, hr.hash, hr.found, hr.purpose, hr.orderId.trans hid, hr.amount⟩
  escrowed := h.escrowed
  invoice := h.invoice
  closing := h.closing
  collected := h.collected
  manual := h.manual

theorem OrderStep.orderId_eq {o p : LnOrderRow} (h : OrderStep c db o p) :
    p.orderId = o.orderId := by
  cases h <;> rfl

section OrderStep

variable {o p : LnOrderRow}

/-- The two ends that pay out are those of a reason that takes the escrow. -/
theorem settles_of_payable {reason : LnCloseReason}
    (h : reason.rule.terminal = .paid ∨ reason.rule.terminal = .sponsorWins) :
    reason.rule.escrow = .settle := reason.settles_iff.mpr h

theorem OrderStep.amounts (hs : OrderStep c db o p)
    (h : (o.payoutSat = none ∧ o.escrowHash = none) ∨ ∃ n r, EscrowOf db o n r) :
    (p.payoutSat = none ∧ p.escrowHash = none) ∨ ∃ n r, EscrowOf db p n r := by
  cases hs with
  | revert => exact .inl ⟨rfl, rfl⟩
  | unapprove => exact .inl ⟨rfl, rfl⟩
  | approve n r _ _ _ hpos hr hpurpose hid hamount =>
    exact .inr ⟨n, r, hpos, rfl, rfl, hr, hpurpose, hid, hamount⟩
  | _ => exact h.imp_right fun ⟨n, r, hr⟩ => ⟨n, r, hr.1, hr.2, hr.3, hr.4, hr.5, hr.6, hr.7⟩

theorem OrderStep.escrowed_ne_none (hs : OrderStep c db o p)
    (h : o.state.hasEscrow → o.escrowHash ≠ none) : p.state.hasEscrow → p.escrowHash ≠ none := by
  intro hp
  cases hs with
  | claim => simp [OrderState.hasEscrow] at hp
  | revert => simp [OrderState.hasEscrow] at hp
  | approve => simp
  | verify hash _ _ _ he => simp [he]
  | unapprove hs => simp [OrderState.hasEscrow, hs] at hp
  | escrowed _ hs => exact h (by simp [OrderState.hasEscrow, hs])
  | firstInvoice _ hs => exact h (by simp [OrderState.hasEscrow, hs])
  | remit hs => exact h (by simp [OrderState.hasEscrow, hs])
  | finish reason _ _ hsettled =>
    have ht : reason.rule.terminal = .paid ∨ reason.rule.terminal = .sponsorWins := by
      revert hp
      cases reason <;> simp [OrderState.hasEscrow, LnCloseReason.rule]
    obtain ⟨r, hr, -⟩ := hsettled (settles_of_payable ht)
    simp [hr]
  | _ => exact h hp

theorem OrderStep.invoice (hs : OrderStep c db o p)
    (hcl : ∀ reason, o.pendingClose = some reason → canTransition o.state reason.rule.terminal)
    (h : o.state.hasInvoice → ∃ b, o.sponsorInvoice = some b ∧ o.Exact c.env b) :
    p.state.hasInvoice → ∃ b, p.sponsorInvoice = some b ∧ p.Exact c.env b := by
  intro hp
  cases hs with
  | claim => simp [OrderState.hasInvoice] at hp
  | revert => simp [OrderState.hasInvoice] at hp
  | approve _ _ hs => simp [OrderState.hasInvoice, hs] at hp
  | verify => simp [OrderState.hasInvoice] at hp
  | unapprove hs => simp [OrderState.hasInvoice, hs] at hp
  | escrowed => simp [OrderState.hasInvoice] at hp
  | firstInvoice b _ _ hx => exact ⟨b, rfl, hx⟩
  | replaceInvoice b _ _ hx => exact ⟨b, rfl, hx⟩
  | remit hs => exact h (by simp [OrderState.hasInvoice, hs])
  | finish reason hpc =>
    have ht : reason.rule.terminal = .paid ∨ reason.rule.terminal = .sponsorWins := by
      revert hp
      cases reason <;> simp [OrderState.hasInvoice, LnCloseReason.rule]
    have hsrc := source_of_settle (hcl reason hpc) (settles_of_payable ht)
    exact h (hsrc.imp_right .inl)
  | _ => exact h hp

theorem OrderStep.closing (hs : OrderStep c db o p)
    (h : ∀ reason, o.pendingClose = some reason → canTransition o.state reason.rule.terminal) :
    ∀ reason, p.pendingClose = some reason → canTransition p.state reason.rule.terminal := by
  intro reason hr
  have hnone : o.pendingClose = none → o.pendingClose = some reason → False := by
    intro hn hs
    rw [hn] at hs
    cases hs
  cases hs with
  | claim _ _ hp => exact absurd hr (hnone hp)
  | revert _ hp => exact absurd hr (hnone hp)
  | verify _ _ _ hp => exact absurd hr (hnone hp)
  | escrowed _ _ hp => exact absurd hr (hnone hp)
  | firstInvoice _ _ hp => exact absurd hr (hnone hp)
  | remit _ hp => exact absurd hr (hnone hp)
  | abandon => cases hr
  | finish => cases hr
  | _ => exact h reason hr

theorem OrderStep.collected (hs : OrderStep c db o p)
    (h : o.payable → ∃ r, o.escrowHash = some r.paymentHash ∧
      db.holds.find r.paymentHash = some r ∧ r.status = .settled) :
    p.payable → ∃ r, p.escrowHash = some r.paymentHash ∧
      db.holds.find r.paymentHash = some r ∧ r.status = .settled := by
  intro hp
  cases hs with
  | claim => simp [LnOrderRow.payable] at hp
  | revert => simp [LnOrderRow.payable] at hp
  | approve _ _ hs => simp [LnOrderRow.payable, hs] at hp
  | verify => simp [LnOrderRow.payable] at hp
  | unapprove hs => simp [LnOrderRow.payable, hs] at hp
  | escrowed => simp [LnOrderRow.payable] at hp
  | firstInvoice => simp [LnOrderRow.payable] at hp
  | remit => simp [LnOrderRow.payable] at hp
  | finish reason _ _ hsettled => exact hsettled (settles_of_payable hp)
  | _ => exact h hp

theorem OrderStep.manual (hs : OrderStep c db o p)
    (hcl : ∀ reason, o.pendingClose = some reason → canTransition o.state reason.rule.terminal)
    (h : isManualPayout o.payoutError = true → o.payable) :
    isManualPayout p.payoutError = true → p.payable := by
  intro hm
  have hstate : ∀ {s : OrderState}, o.state = s → isManualPayout o.payoutError = true →
      s = .paid ∨ s = .sponsorWins := fun hs hm => hs ▸ h hm
  cases hs with
  | claim _ hs => exact absurd (hstate hs hm) (by simp)
  | revert hs => exact absurd (hstate hs hm) (by simp)
  | verify _ _ hs => exact absurd (hstate hs hm) (by simp)
  | escrowed _ hs => exact absurd (hstate hs hm) (by simp)
  | firstInvoice _ hs => exact absurd (hstate hs hm) (by simp)
  | remit hs => exact absurd (hstate hs hm) (by simp)
  | replaceInvoice => cases hm
  | payoutError _ _ _ hnm => exact absurd hm (by simp [hnm])
  | payoutExpired =>
    exact absurd (show isManualPayout (some payoutInvoiceExpired) = true from hm) (by decide)
  | payoutManual _ _ hpay => exact hpay
  | disbursed => cases hm
  | finish reason hpc =>
    have ht := hcl reason hpc
    rcases h hm with hs | hs <;> rw [hs] at ht <;> cases reason <;> cases ht
  | _ => exact h hm

/-- **Every change of an order keeps it sound.** -/
theorem OrderStep.orderInv (hs : OrderStep c db o p) (h : OrderInv c.env db o) :
    OrderInv c.env db p :=
  ⟨hs.amounts h.amounts, hs.escrowed_ne_none h.escrowed, hs.invoice h.closing h.invoice,
    hs.closing h.closing, hs.collected h.collected, hs.manual h.closing h.manual⟩

end OrderStep

/-! ## The ledger's invariant -/

/-- The escrow of an order that was remitted for: what may be settled outside a close. -/
def LateEscrow (db : LnDb) (h : Hash) : Prop :=
  ∃ id o, getOrder id db = some o ∧ o.escrowHash = some h ∧
    (o.state = .remitted ∨ o.state = .paid ∨ o.state = .sponsorWins ∨ o.state = .customerWins)

/-- What holds of every ledger and its node. -/
structure LnInv (env : LnEnv) (node : LnNode) (db : LnDb) : Prop where
  agree : HoldsAgree node db.holds
  noDraft : ∀ id, getOrder id db ≠ none → getDraft id db = none
  order : ∀ id o, getOrder id db = some o → OrderInv env db o
  lateSettle : ∀ h, .holdDispose h .settle ∈ db.effects → LateEscrow db h

theorem OrderNext.orderInv {o o' : LnOrderRow} (hn : OrderNext c db o o')
    (h : OrderInv c.env db o) : OrderInv c.env db o' := by
  cases hn with
  | same => exact h
  | step p hs => exact (hs.orderInv h).restamp hs.orderId_eq c.now
  | close reason hp ht =>
    refine OrderInv.restamp (p := { o with pendingClose := some reason }) rfl
      ⟨?_, h.escrowed, h.invoice, ?_, h.collected, h.manual⟩ c.now
    · exact h.amounts.imp_right fun ⟨n, r, hr⟩ => ⟨n, r, hr.1, hr.2, hr.3, hr.4, hr.5, hr.6, hr.7⟩
    · rintro _ ⟨⟩
      exact ht

/-- A remitted order keeps its escrow, whatever its end. -/
theorem OrderNext.late {o o' : LnOrderRow} (hn : OrderNext c db o o')
    (h : OrderInv c.env db o) (hlate : o.state = .remitted ∨ o.state = .paid ∨
      o.state = .sponsorWins ∨ o.state = .customerWins) :
    o'.escrowHash = o.escrowHash ∧ (o'.state = .remitted ∨ o'.state = .paid ∨
      o'.state = .sponsorWins ∨ o'.state = .customerWins) := by
  have hstate : ∀ {s : OrderState}, o.state = s → s = .remitted ∨ s = .paid ∨
      s = .sponsorWins ∨ s = .customerWins := fun hs => hs ▸ hlate
  cases hn with
  | same => exact ⟨rfl, hlate⟩
  | close => exact ⟨rfl, hlate⟩
  | step p hs =>
    cases hs with
    | claim _ hs => exact absurd (hstate hs) (by simp)
    | revert hs => exact absurd (hstate hs) (by simp)
    | approve _ _ hs => exact absurd (hstate hs) (by simp)
    | verify _ _ hs => exact absurd (hstate hs) (by simp)
    | unapprove hs => exact absurd (hstate hs) (by simp)
    | escrowed _ hs => exact absurd (hstate hs) (by simp)
    | firstInvoice _ hs => exact absurd (hstate hs) (by simp)
    | remit => exact ⟨rfl, .inl rfl⟩
    | finish reason hp =>
      refine ⟨rfl, ?_⟩
      have ht := h.closing reason hp
      rcases hlate with hs | hs | hs | hs <;> rw [hs] at ht
      · cases reason <;> first | exact absurd ht (by decide) | exact .inr (.inl rfl) |
          exact .inr (.inr (.inl rfl)) | exact .inr (.inr (.inr rfl))
      all_goals cases reason <;> cases ht
    | _ => exact ⟨rfl, hlate⟩

theorem LnEdge.lateEscrow (he : LnEdge c id db db')
    (hinv : ∀ id o, getOrder id db = some o → OrderInv c.env db o) {h : Hash}
    (hl : LateEscrow db h) : LateEscrow db' h := by
  obtain ⟨id', o, ho, hh, hs⟩ := hl
  obtain ⟨o', ho', hn⟩ := he.order_next ho
  obtain ⟨heq, hs'⟩ := hn.late (hinv id' o ho) hs
  exact ⟨id', o', ho', heq.trans hh, hs'⟩

/-- **Every edge keeps the invariant.** -/
theorem LnEdge.lnInv (he : LnEdge c id db db') (h : LnInv c.env c.node db) :
    LnInv c.env c.node db' where
  agree := he.holdsAgree h.agree
  noDraft := by
    intro id' ho'
    by_contra hd'
    obtain ⟨d, hd'⟩ := Option.ne_none_iff_exists'.mp hd'
    rcases he.draft_cases hd' with hd | ⟨-, hn⟩
    · obtain ⟨o', ho'⟩ := Option.ne_none_iff_exists'.mp ho'
      have hn : getDraft id' db = none := by
        rcases he.order_cases ho' with ho | ⟨-, hn, -⟩ | ⟨o, -, ho, -⟩ | ⟨o, -, ho, -⟩
        · exact h.noDraft id' (by simp [ho])
        · exact hn
        · exact h.noDraft id' (by simp [ho])
        · exact h.noDraft id' (by simp [ho])
      rw [hn] at hd
      cases hd
    · exact ho' hn
  order := by
    intro id' o' ho'
    have hmono : ∀ o, OrderInv c.env db o → OrderInv c.env db' o := fun o ho =>
      ho.mono fun _ _ hr => he.find_later hr
    rcases he.order_cases ho' with ho | ⟨-, -, n, rfl⟩ | ⟨o, p, ho, -, -, hs, rfl⟩ |
      ⟨o, reason, ho, hp, ht, hu, hb, rfl⟩
    · exact hmono _ (h.order id' o' ho)
    · exact orderInv_row _ n _
    · exact hmono _ ((OrderNext.step p hs).orderInv (h.order id' o ho))
    · exact hmono _ ((OrderNext.close reason hp ht hu hb).orderInv (h.order id' o ho))
  lateSettle := by
    intro hash hmem
    rcases he.mem_effects hmem with hmem | ⟨_, ⟨⟩⟩ | ⟨_, _, ⟨⟩, hsettle⟩ | ⟨⟨⟩⟩ | ⟨⟨⟩⟩
    · exact he.lateEscrow h.order (h.lateSettle hash hmem)
    · obtain ⟨o, ho, hs, -, hh⟩ := hsettle rfl
      exact he.lateEscrow h.order ⟨id, o, ho, hh, .inl hs⟩

theorem LnMove.lnInv (he : LnMove c db db') (h : LnInv c.env c.node db) :
    LnInv c.env c.node db' := by
  obtain ⟨id, he⟩ := he
  exact he.lnInv h

/-- A change of the node that keeps the table in agreement keeps the invariant. -/
theorem LnInv.node {env : LnEnv} {node node' : LnNode} (h : LnInv env node db)
    (ha : HoldsAgree node' db.holds) : LnInv env node' db :=
  ⟨ha, h.noDraft, h.order, h.lateSettle⟩

/-- Taking an effect off the queue keeps the invariant. -/
theorem LnInv.finish {env : LnEnv} {node : LnNode} (h : LnInv env node db) (e : Effect LnEffect) :
    LnInv env node (db.finish e) :=
  ⟨h.agree, h.noDraft, fun id o ho => (h.order id o ho).mono fun _ r hr => ⟨r, hr, .refl r⟩,
    fun hash hmem => h.lateSettle hash (Db.mem_of_mem_finish hmem)⟩

end LnPay
