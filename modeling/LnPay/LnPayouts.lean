/-
# Payouts of the Lightning track

Two properties of every run, from the invariant of `LnSound`:

* at most one payment of an order ever succeeds, and none begins once the
  operator has stopped the payout (`at_most_one_payout`),
* nothing is paid out before the escrow is collected
  (`no_payout_without_escrow`).

`Stopped` is the state of an order that is not paid any more; it is for good.
-/
import LnPay.LnSound

namespace LnPay

variable {env : LnEnv} {w w' : LnWorld} {i : LnInput} {id : OrderId}

/-! ## A stopped payout -/

/-- The order is due, and it is paid already or the operator has stopped the payout. -/
def Stopped (id : OrderId) (db : LnDb) : Prop :=
  ∃ o, getOrder id db = some o ∧ o.payable ∧
    (isManualPayout o.payoutError = true ∨ o.disbursed = true)

/-- The payment hashes `payInvoice` has been called with for an order. -/
def payCalls (id : OrderId) (payments : List Payment) : List Hash :=
  (payments.filter fun p => p.orderId = some id).map Payment.paymentHash

section Stop

variable {c : EdgeCtx} {id' : OrderId} {db db' : LnDb}

/-- No edge lets a stopped payout go on. -/
theorem LnEdge.stopped (he : LnEdge c id' db db') (hinv : LnInv c.env c.node db)
    (h : Stopped id db) : Stopped id db' := by
  obtain ⟨o, ho, hpay, hstop⟩ := h
  obtain ⟨o', ho', hn⟩ := he.order_next ho
  refine ⟨o', ho', (hn.payable (hinv.order id o ho) hpay).1, ?_⟩
  cases hn with
  | same => exact hstop
  | close => exact hstop
  | step p hs =>
    cases hs with
    | replaceInvoice _ hs =>
      rcases hs with hs | hs | ⟨-, hd, he⟩
      · rcases hpay with hp | hp <;> rw [hs] at hp <;> cases hp
      · rcases hpay with hp | hp <;> rw [hs] at hp <;> cases hp
      · -- a stopped payout is not one whose invoice has expired
        rcases hstop with hm | hd'
        · rw [he] at hm
          exact absurd hm (by decide)
        · rw [hd] at hd'
          cases hd'
    | payoutError _ hm => exact .inr (hstop.resolve_left (by simp [hm]))
    | payoutExpired _ _ _ _ _ _ hm => exact .inr (hstop.resolve_left (by simp [hm]))
    | payoutManual _ hm => exact .inl hm
    | disbursed => exact .inr rfl
    | markDisbursed => exact .inr rfl
    | _ => exact hstop

end Stop

theorem Stopped.step (hsound : Sound env w) (h : Stopped id w.db)
    (hs : LnWorld.step env w i = some w') : Stopped id w'.db := by
  refine ((step_moved hsound hs).keeps (P := fun db => LnInv env w.node db ∧ Stopped id db)
    ?_ ?_ ⟨hsound.ledger, h⟩).2
  · rintro a b hp ⟨hinv, o, ho, hrest⟩
    exact ⟨hinv.prepared hp, o, by rw [hp.getOrder_eq, ho], hrest⟩
  · rintro a b ⟨id', he⟩ ⟨hinv, h⟩
    exact ⟨he.lnInv hinv, he.stopped hinv h⟩

/-! ## Which steps pay -/

theorem payCalls_append (id : OrderId) (payments : List Payment) (p : Payment) :
    payCalls id (payments ++ [p]) =
      payCalls id payments ++ if p.orderId = some id then [p.paymentHash] else [] := by
  unfold payCalls
  rw [List.filter_append, List.map_append]
  congr 1
  by_cases h : p.orderId = some id <;> simp [h]

theorem payCalls_set (id : OrderId) {payments : List Payment} {index : ℕ} {p : Payment}
    {status : PayStatus} (hp : payments[index]? = some p) :
    payCalls id (payments.set index { p with status := status }) = payCalls id payments := by
  induction payments generalizing index with
  | nil => rfl
  | cons q payments ih =>
    cases index with
    | zero =>
      obtain rfl : q = p := Option.some.inj hp
      by_cases h : q.orderId = some id <;> simp [payCalls, h]
    | succ n =>
      have := @ih n hp
      simp only [payCalls] at this ⊢
      rw [List.set_cons_succ, List.filter_cons, List.filter_cons]
      split
      · rw [List.map_cons, List.map_cons, this]
      · exact this

/-- A turn pays only by awaiting `payInvoice`. -/
theorem payments_turn (env : LnEnv) (w : LnWorld) (e : Effect LnEffect) (t : LnTurn) :
    (w.turn env e t).payments = w.payments ∨
      ∃ order bolt11 info, t = .await (.payoutPay order bolt11 info) ∧
        (w.turn env e t).payments =
          w.payments ++ [⟨some order.orderId, info.paymentHash, .inFlight⟩] := by
  rcases turn_cases env w e t with ⟨a, rfl⟩ | ⟨db, h⟩
  · cases a with
    | payoutPay order bolt11 info => exact .inr ⟨order, bolt11, info, rfl, rfl⟩
    | _ => exact .inl rfl
  · rw [h]
    exact .inl rfl

/-- **No step pays for an order whose payout is stopped.** -/
theorem Stopped.payCalls_step (hsound : Sound env w) (h : Stopped id w.db)
    (hs : LnWorld.step env w i = some w') : payCalls id w'.payments = payCalls id w.payments := by
  cases i with
  | start e =>
    have ht := takesTurn_start hsound hs
    obtain ⟨-, hfact, rfl⟩ := ht
    rcases payments_turn env w e (LnCtx.startRun ⟨env, w.now, none⟩ e w.db) with
      hp | ⟨order, bolt11, info, hpay, -⟩
    · rw [hp]
    · rw [hpay] at hfact
      exact absurd hpay (not_payoutPay_of_start hsound.ledger.order hfact.1)
  | resume =>
    obtain ⟨e, a, ans, hr, -, hfact, rfl⟩ := takesTurn_resume hsound hs
    rcases payments_turn env w e (LnCtx.resumeRun ⟨env, w.now, none⟩ a ans w.db) with
      hp | ⟨order, bolt11, info, hpay, hp⟩
    · rw [hp]
    · rw [hp, payCalls_append, if_neg, List.append_nil]
      intro hid
      obtain rfl : order.orderId = id := Option.some.inj hid
      rw [hpay] at hfact
      obtain ⟨rfl, -, hm, -⟩ := payoutPay_of_resume (hsound.running e a _ hr).1 hfact.1 hpay
      -- the check before the call sees what has stopped the payout
      obtain ⟨o, ho, -, hstop⟩ := h
      obtain ⟨o', ho', -, hd⟩ := hsound.pay.captured _ _ _ _ _ hr
      obtain rfl := Option.some.inj (ho.symm.trans ho')
      rw [ho, Option.bind_some] at hm
      rw [hstop.elim (fun h => h) hd] at hm
      cases hm
  | resolve index status =>
    simp only [LnWorld.step] at hs
    split at hs
    · rename_i p hp
      split at hs
      · obtain rfl := Option.some.inj hs
        exact payCalls_set id hp
      · cases hs
    · cases hs
  | payByHand hash =>
    obtain rfl := Option.some.inj hs
    rw [payCalls_append, if_neg (by simp), List.append_nil]
  | request action event price =>
    obtain rfl := Option.some.inj hs
    rw [transact_eq]
  | command cmd orderId version price =>
    obtain rfl := Option.some.inj hs
    rw [transact_eq]
  | clock height price =>
    obtain rfl := Option.some.inj hs
    rw [transact_eq]
  | otherTrack p =>
    simp only [LnWorld.step] at hs
    split at hs
    · cases hs
    · obtain rfl := Option.some.inj hs
      rw [transact_eq]
  | accept hash height =>
    obtain ⟨n, -, rfl⟩ := Option.map_eq_some_iff.mp hs
    rfl
  | expire hash =>
    obtain ⟨n, -, rfl⟩ := Option.map_eq_some_iff.mp hs
    rfl
  | tick seconds => exact Option.some.inj hs ▸ rfl
  | configSet settings => exact Option.some.inj hs ▸ rfl
  | crash => exact Option.some.inj hs ▸ rfl
  | poll hash =>
    simp only [LnWorld.step] at hs
    split at hs <;> cases hs
    rfl
  | observe =>
    simp only [LnWorld.step] at hs
    split at hs
    · cases hs
    · split at hs <;> cases hs <;> rfl
  | serve fault bolt11 =>
    simp only [LnWorld.step] at hs
    split at hs
    · split at hs <;> cases hs
      rfl
    · cases hs
  | answer ans =>
    simp only [LnWorld.step] at hs
    split at hs
    · split at hs <;> cases hs
      rfl
    · cases hs

/-- From a reachable world on, nothing is paid for an order whose payout is stopped. -/
theorem Stopped.payCalls_run {is : List LnInput} (hw : (lnSystem env).Reachable w)
    (h : Stopped id w.db) (hrun : (lnSystem env).run w is = some w') :
    payCalls id w'.payments = payCalls id w.payments := by
  induction is generalizing w with
  | nil => exact Option.some.inj hrun ▸ rfl
  | cons i is ih =>
    rw [TransitionSystem.run, Option.bind_eq_some_iff] at hrun
    obtain ⟨w₁, hs, hrun⟩ := hrun
    have hsound := sound_of_reachable hw
    rw [ih (hw.next hs) (h.step hsound hs) hrun, h.payCalls_step hsound hs]

/-! ## The two properties -/

/-- **At most one payout.**  In every run at most one payment hash is ever paid for an order, and
once `payout_error` says that a human pays, `payInvoice` is not called for it again. -/
theorem at_most_one_payout (hw : (lnSystem env).Reachable w) (id : OrderId) :
    (∀ p ∈ w.payments, ∀ q ∈ w.payments, p.orderId = some id → q.orderId = some id →
      p.status = .succeeded → q.status = .succeeded → p.paymentHash = q.paymentHash) ∧
    ∀ o, getOrder id w.db = some o → isManualPayout o.payoutError = true →
      ∀ is w', (lnSystem env).run w is = some w' →
        payCalls id w'.payments = payCalls id w.payments := by
  have hsound := sound_of_reachable hw
  refine ⟨fun p hp q hq hpid hqid hps hqs => ?_, fun o ho hm is w' hrun => ?_⟩
  · -- both are of the invoice on record
    have hlive : ∀ {r : Payment}, r.status = .succeeded → r.status ≠ .failed := by
      intro r hr
      rw [hr]
      decide
    obtain ⟨o, b, info, ho, -, hb, hread, hh⟩ := hsound.pay.ledger.current p hp id hpid (hlive hps)
    obtain ⟨o', b', info', ho', -, hb', hread', hh'⟩ :=
      hsound.pay.ledger.current q hq id hqid (hlive hqs)
    obtain rfl := Option.some.inj (ho.symm.trans ho')
    obtain rfl := Option.some.inj (hb.symm.trans hb')
    obtain rfl := Option.some.inj (hread.symm.trans hread')
    rw [hh, hh']
  · exact Stopped.payCalls_run hw ⟨o, ho, (hsound.ledger.order id o ho).manual hm, .inl hm⟩ hrun

/-- The sample trade pays once; stopped before it pays, it never does. -/
theorem at_most_one_payout_sample :
    (∃ w, sampleRun (sampleClosing ++ samplePayout) = some w ∧
      (∃ p ∈ w.payments, p.orderId = some "ord1" ∧ p.status = .succeeded) ∧
      ∀ p ∈ w.payments, ∀ q ∈ w.payments, p.orderId = some "ord1" → q.orderId = some "ord1" →
        p.status = .succeeded → q.status = .succeeded → p.paymentHash = q.paymentHash) ∧
    ∃ w, sampleRun (sampleClosing ++ [.command .manualPayout "ord1" 10 none]) = some w ∧
      ∀ is w', (lnSystem sampleEnv).run w is = some w' → payCalls "ord1" w'.payments = [] := by
  have hpaid : (sampleRun (sampleClosing ++ samplePayout)).any (fun w => w.payments.any fun p =>
      p.orderId = some "ord1" ∧ p.status = .succeeded) = true := by decide +kernel
  have hstop : (sampleRun (sampleClosing ++ [.command .manualPayout "ord1" 10 none])).any (fun w =>
      payCalls "ord1" w.payments = [] ∧
        (getOrder "ord1" w.db).any fun o => isManualPayout o.payoutError) = true := by
    decide +kernel
  simp only [Option.any_eq_true, List.any_eq_true, decide_eq_true_eq] at hpaid hstop
  obtain ⟨w, hw, hsome⟩ := hpaid
  obtain ⟨w', hw', hcalls, o, ho, hm⟩ := hstop
  refine ⟨⟨w, hw, hsome, (at_most_one_payout (reachable_of_sampleRun hw) "ord1").1⟩, w', hw', ?_⟩
  intro is w'' hrun
  rw [← hcalls]
  exact (at_most_one_payout (reachable_of_sampleRun hw') "ord1").2 o ho hm is w'' hrun

/-- **No payout without the escrow.**  Behind the account gate an order has an invoice over exactly
its payout and an escrow that exceeds it; it is paid out for only when the escrow is settled, on
record and on the node; so a payout never finds itself without a destination. -/
theorem no_payout_without_escrow (hw : (lnSystem env).Reachable w) :
    (∀ id o, getOrder id w.db = some o → o.state.hasInvoice →
      ∃ bolt11 info payoutSat escrow, o.sponsorInvoice = some bolt11 ∧
        readBolt11 env bolt11 = some info ∧ o.payoutSat = some payoutSat ∧
        info.amountSat = payoutSat ∧ o.escrowHash = some escrow.paymentHash ∧
        w.db.holds.find escrow.paymentHash = some escrow ∧
        escrow.amountSat = computeEscrowSat payoutSat ∧ payoutSat < escrow.amountSat) ∧
    (∀ id o, getOrder id w.db = some o → o.state = .paid ∨ o.state = .sponsorWins →
      ∃ escrow inv, o.escrowHash = some escrow.paymentHash ∧
        w.db.holds.find escrow.paymentHash = some escrow ∧ escrow.status = .settled ∧
        w.node escrow.paymentHash = some inv ∧ inv.state = .settled) ∧
    (∀ e order bolt11 info ans, w.running = some ⟨e, .payoutPay order bolt11 info, ans⟩ →
      readBolt11 env bolt11 = some info ∧ ∃ o, getOrder order.orderId w.db = some o ∧
        (o.state = .paid ∨ o.state = .sponsorWins) ∧ o.payoutSat = some info.amountSat) ∧
    (∀ id error, LnCtx.payoutStart ⟨env, w.now, none⟩ id w.db ≠ .dead error) ∧
    ∀ id a ans error, w.running = some ⟨.own (.payout id), a, some ans⟩ →
      LnCtx.resumeRun ⟨env, w.now, none⟩ a ans w.db ≠ .dead error := by
  have hsound := sound_of_reachable hw
  refine ⟨fun id o ho hs => ?_, fun id o ho hpay => ?_, fun e order bolt11 info ans hr => ?_,
    fun id error h => ?_, fun id a ans error hr h => ?_⟩
  · have hinv := hsound.ledger.order id o ho
    obtain ⟨bolt11, hb, -, info, hread, hsat, -⟩ := hinv.invoice hs
    have hesc : o.escrowHash ≠ none := hinv.escrowed (.inr (.inr hs))
    rcases hinv.amounts with ⟨-, hn⟩ | ⟨payoutSat, r, hr⟩
    · exact absurd hn hesc
    · refine ⟨bolt11, info, payoutSat, r, hb, hread, hr.payout, ?_, hr.hash, hr.found, hr.amount, ?_⟩
      · exact Option.some.inj (hsat.symm.trans hr.payout)
      · rw [hr.amount]
        exact lt_computeEscrowSat hr.pos
  · obtain ⟨r, hh, hr, hs⟩ := (hsound.ledger.order id o ho).collected hpay
    have hag := hsound.ledger.agree _ _ hr
    rw [Agrees, hs] at hag
    obtain ⟨inv, hinv, hset⟩ := hag
    exact ⟨r, inv, hh, hr, hs, hinv, hset⟩
  · obtain ⟨-, hread, o, ho, hpay, hsat⟩ := (hsound.running _ _ _ hr).1
    exact ⟨hread, o, ho, hpay, hsat⟩
  · have hctx : ∀ id o, getOrder id w.db = some o → OrderInv env w.db o := hsound.ledger.order
    rcases @payoutStart_cases ⟨env, w.now, none⟩ w.db hctx id with
      hd | ⟨o, b, info, -, -, -, ht⟩
    · rw [hd] at h
      cases h
    · rw [ht] at h
      cases h
  · have hs : LnWorld.step env w .resume = some (w.turn env (.own (.payout id))
        (LnCtx.resumeRun ⟨env, w.now, none⟩ a ans w.db)) := by
      simp only [LnWorld.step, hr]
    obtain ⟨e, a', ans', hr', -, hfact, -⟩ := takesTurn_resume hsound hs
    obtain ⟨⟨⟩⟩ := hr.symm.trans hr'
    rw [h] at hfact
    exact hfact

/-- The sample trade is paid out for, behind an escrow of 10050 sats. -/
theorem no_payout_without_escrow_sample :
    ∃ w o, sampleRun sampleClosing = some w ∧ getOrder "ord1" w.db = some o ∧ o.state = .paid ∧
      ∃ escrow inv, o.escrowHash = some escrow.paymentHash ∧
        w.db.holds.find escrow.paymentHash = some escrow ∧ escrow.status = .settled ∧
        w.node escrow.paymentHash = some inv ∧ inv.state = .settled := by
  have hpaid : (sampleRun sampleClosing).any (fun w =>
      (getOrder "ord1" w.db).any fun o => o.state = .paid) = true := by decide +kernel
  simp only [Option.any_eq_true, decide_eq_true_eq] at hpaid
  obtain ⟨w, hw, o, ho, hp⟩ := hpaid
  exact ⟨w, o, hw, ho, hp,
    (no_payout_without_escrow (reachable_of_sampleRun hw)).2.1 "ord1" o ho (.inl hp)⟩

end LnPay
