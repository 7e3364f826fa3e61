/-
# Order rows follow the state table

The store writes whatever patch it is given; that an order moves along the table
of its states is seen to by the callers.

* `Legal`: a transaction that does not throw in `beginClose`;
* `moves_once`: a transaction makes one change of a state, or none;
* `state_of_step`, `ended_of_step`, `closing_of_step`: what becomes of an order,
  of one that has ended and of one that is closing.
-/
import LnPay.LnCloseRule

namespace LnPay

/-! ## No transaction throws in `beginClose` -/

/-- The outcome is not the throw of `beginClose`. -/
def Legal {α : Type} (r : Except Abort α) : Prop := r ≠ .error .illegalClose

namespace Legal

variable {α β : Type}

theorem ok {a : α} : Legal (.ok a) := fun h => by cases h

theorem bind {r : Except Abort α} {f : α → Except Abort β} (h : Legal r) (hf : ∀ a, Legal (f a)) :
    Legal (r >>= f) := by
  cases r with
  | ok a => exact hf a
  | error e => exact fun he => h (congrArg Except.error (Except.error.inj he))

theorem map {r : Except Abort α} {f : α → β} (h : Legal r) : Legal (r.map f) := by
  cases r with
  | ok a => exact ok
  | error e => exact fun he => h (congrArg Except.error (Except.error.inj he))

theorem ite {p : Prop} [Decidable p] {r s : Except Abort α} (hr : p → Legal r) (hs : ¬ p → Legal s) :
    Legal (if p then r else s) := by
  by_cases h : p
  · rw [if_pos h]
    exact hr h
  · rw [if_neg h]
    exact hs h

theorem forEach {rows : List α} {body : α → LnDb → Except Abort LnDb} {db : LnDb}
    (h : ∀ r ∈ rows, ∀ s, Legal (body r s)) : Legal (forEach rows body db) := by
  induction rows generalizing db with
  | nil => exact ok
  | cons r rows ih =>
    rw [forEach_cons]
    refine (h r List.mem_cons_self db).bind fun s => ih fun r' hr' => h r' (List.mem_cons_of_mem r hr')

end Legal

section Transactions

variable {ctx : LnCtx} {db : LnDb}

theorem legal_updateOrder {now : ℤ} {id : OrderId} {patch : LnOrderRow → LnOrderRow} :
    Legal (updateOrder now id patch db) := by
  unfold updateOrder
  split
  · exact fun h => by cases h
  · exact .ok

theorem legal_insertOrder {now : ℤ} {o : NewOrder} : Legal (insertOrder now o db) := by
  unfold insertOrder
  split
  · exact fun h => by cases h
  · exact .ok

theorem legal_plan {keys : KeyDerivation} {now : ℤ} {p : HoldPlan} : Legal (plan keys now p db) := by
  unfold plan
  dsimp only
  refine Legal.bind ?_ fun scope => Legal.bind ?_ fun _ => .ok
  · unfold scopeOf preimageScope
    exact .ite (fun _ h => by cases h) fun _ => .ok
  · unfold insertHold
    split
    · exact fun h => by cases h
    · split
      · exact fun h => by cases h
      · exact .ok

theorem legal_planCustomerDeposit {draft : LnDraftRow} {pct : ℚ} :
    Legal (ctx.planCustomerDeposit draft pct db) := by
  unfold LnCtx.planCustomerDeposit
  split
  · exact .ok
  · dsimp only
    split
    · exact .ok
    · exact legal_plan.bind fun _ => .ok

theorem legal_planSponsorDeposit {order : LnOrderRow} {pct : ℚ} :
    Legal (ctx.planSponsorDeposit order pct db) := by
  unfold LnCtx.planSponsorDeposit
  split
  · exact legal_plan.bind fun _ => .ok
  · exact .ok

theorem legal_approve {order : LnOrderRow} : Legal (ctx.approve order db) := by
  unfold LnCtx.approve
  split
  · exact .ok
  · split
    · exact .ok
    · exact legal_plan.bind fun _ => legal_updateOrder.bind fun _ => .ok

/-- `beginClose` throws only out of a state from which the end cannot be reached. -/
theorem legal_beginClose {order : LnOrderRow} {reason : LnCloseReason}
    (h : canTransition order.state reason.rule.terminal = true) :
    Legal (ctx.beginClose order reason db) := by
  unfold LnCtx.beginClose
  split
  · exact .ok
  · exact legal_updateOrder.bind fun _ => .ok

theorem legal_revertClaim {order : LnOrderRow} : Legal (ctx.revertClaim order db) := legal_updateOrder

/-- **Requests.** -/
theorem legal_handle {action : LnAction} {event : LnEvent} : Legal (ctx.handle action event db) := by
  have hwith : ∀ {handler : LnEvent → LnOrderRow → LnDb → Handled},
      (∀ order, Legal (handler event order db)) → Legal (LnCtx.withOrder handler event db) := by
    intro handler h
    unfold LnCtx.withOrder
    split
    · exact .ok
    · split
      · exact .ok
      · exact h _
  cases action with
  | orderRequest =>
    change Legal (ctx.orderRequest event db)
    unfold LnCtx.orderRequest
    split
    · exact .ok
    · dsimp only
      split
      · exact .ok
      · split
        · exact legal_insertOrder.map
        · refine Legal.map (Legal.bind ?_ fun _ => legal_planCustomerDeposit)
          unfold insertDraft
          split
          · exact fun h => by cases h
          · exact .ok
  | designatedOrderRequest =>
    change Legal (ctx.designatedOrderRequest event db)
    unfold LnCtx.designatedOrderRequest
    split
    · exact .ok
    · split
      · exact .ok
      · exact .ok
      · split
        · exact .ok
        · split
          · exact .ok
          · split
            · exact .ok
            · exact legal_insertOrder.map
  | claim =>
    refine hwith fun order => ?_
    unfold LnCtx.claim
    iterate 5
      split
      · exact .ok
    refine Legal.map (legal_updateOrder.bind fun db₁ => ?_)
    split
    · exact legal_planSponsorDeposit
    · exact .ok
  | sponsorInvoice =>
    refine hwith fun order => ?_
    unfold LnCtx.sponsorInvoice
    refine .ite (fun _ => .ok) fun _ => .ite (fun _ => .ok) fun _ => ?_
    split
    · exact .ok
    · refine .ite (fun _ => .ok) fun _ => .ite (fun _ => .ok) fun _ => .ite (fun _ => .ok) fun _ =>
        .ite (fun _ => .ok) fun _ => ?_
      split
      · exact .ok
      · refine .ite (fun _ => .ok) fun _ => .ite (fun _ => .ok) fun _ => .ite (fun _ => .ok) fun _ =>
          .ite (fun _ => .ok) fun _ => .ite (fun _ => legal_updateOrder.map) fun _ => ?_
        exact Legal.map (legal_updateOrder.bind fun _ => .ok)
  | accountInfo =>
    refine hwith fun order => ?_
    unfold LnCtx.accountInfo
    iterate 2
      split
      · exact .ok
    split
    · exact .ok
    · split
      · exact .ok
      · exact legal_updateOrder.map
  | remitRequest =>
    refine hwith fun order => ?_
    unfold LnCtx.remitRequest
    iterate 4
      split
      · exact .ok
    exact legal_updateOrder.map
  | paymentConfirm =>
    refine hwith fun order => ?_
    unfold LnCtx.paymentConfirm
    iterate 2
      split
      · exact .ok
    split
    · exact .ok
    · rename_i hs
      refine Legal.map (Legal.map (legal_beginClose ?_))
      have hs : order.state = .invoiced ∨ order.state = .remitted := by tauto
      obtain hs | hs := hs <;> rw [hs] <;> rfl
  | cancelRequest =>
    change Legal (ctx.cancelRequest event db)
    unfold LnCtx.cancelRequest
    split
    · exact .ok
    · split
      · split
        · exact .ok
        · dsimp only
          split
          · exact .ok
          · exact .ok
      · split
        · exact .ok
        · iterate 2
            split
            · exact .ok
          split
          · rename_i hs
            exact Legal.map (legal_beginClose (by rw [hs]; rfl))
          · split
            · rename_i hs
              refine Legal.map (legal_beginClose ?_)
              obtain hs | hs := hs <;> rw [hs] <;> rfl
            · exact .ok

/-- **Commands.** -/
theorem legal_command {cmd : LnCommand} {id : OrderId} {version : ℕ} :
    Legal (ctx.command cmd id version db) := by
  unfold LnCtx.command
  split
  · exact .ok
  · rename_i order _
    split
    · exact .ok
    · cases cmd with
      | approve => exact legal_approve
      | revertClaim =>
        change Legal (ctx.cmdRevertClaim order db)
        unfold LnCtx.cmdRevertClaim
        iterate 2
          split
          · exact .ok
        exact legal_revertClaim.map
      | rule winner =>
        change Legal (ctx.cmdRule winner order db)
        unfold LnCtx.cmdRule
        split
        · exact .ok
        · split
          · exact .ok
          · rename_i hs
            refine Legal.map (legal_beginClose ?_)
            rw [not_not.mp hs]
            split <;> rfl
      | forceClose =>
        change Legal (ctx.cmdForceClose order db)
        unfold LnCtx.cmdForceClose
        split
        · exact .ok
        · rename_i hs
          refine Legal.map (legal_beginClose ?_)
          have hs : order.state = .escrowed ∨ order.state = .invoiced := by tauto
          obtain hs | hs := hs <;> rw [hs] <;> rfl
      | retryPayout =>
        change Legal (LnCtx.cmdRetryPayout order db)
        unfold LnCtx.cmdRetryPayout
        iterate 2
          split
          · exact .ok
        exact .ok
      | manualPayout =>
        change Legal (ctx.cmdManualPayout order db)
        unfold LnCtx.cmdManualPayout
        iterate 3
          split
          · exact .ok
        exact legal_updateOrder.bind fun _ => .ok
      | markDisbursed =>
        change Legal (ctx.cmdMarkDisbursed order db)
        unfold LnCtx.cmdMarkDisbursed
        iterate 2
          split
          · exact .ok
        exact legal_updateOrder.map
      | revealRequest =>
        change Legal (LnCtx.cmdRevealRequest order db)
        unfold LnCtx.cmdRevealRequest
        iterate 2
          split
          · exact .ok
        exact .ok

/-- **The clock.** -/
theorem legal_clock {startedAt : ℤ} {height : Option ℕ} : Legal (ctx.clock startedAt height db) := by
  have happrove : ∀ {order : LnOrderRow} {s : LnDb}, Legal (ctx.clockApprove order s) := by
    intro order s
    unfold LnCtx.clockApprove
    split
    · exact legal_approve.map
    · exact .ok
  unfold LnCtx.clock
  refine Legal.bind (.forEach fun draft _ s => ?_) fun db₁ =>
    Legal.bind (.forEach fun order _ s => ?_) fun db₂ =>
    Legal.bind (.forEach fun order horder s => ?_) fun db₃ =>
    Legal.bind (.forEach fun order _ s => ?_) fun db₄ => .forEach fun order _ s => ?_
  · unfold LnCtx.clockDraft
    split
    · split
      · exact .ok
      · split
        · exact legal_planCustomerDeposit
        · exact legal_insertOrder
    · split
      · exact .ok
      · exact .ok
  · unfold LnCtx.clockClaim
    split
    · exact .ok
    · split
      · split
        · exact legal_planSponsorDeposit
        · split
          · exact legal_revertClaim
          · exact happrove
      · exact happrove
  · -- only orders that wait for their escrow are read for this loop
    have hs : order.state = .verified := by simpa using (mem_ordersInStates.mp horder).2
    unfold LnCtx.clockUnpaid
    split
    · exact .ok
    · split
      · exact .ok
      · split
        · exact Legal.map (legal_beginClose (by rw [hs]; rfl))
        · exact .ok
  · unfold LnCtx.clockExpiry
    split
    · exact .ok
    · split
      · exact .ok
      · rename_i reason hreason
        split
        · exact Legal.map (legal_beginClose (canTransition_of_expiryReasonFor hreason))
        · exact .ok
  · unfold LnCtx.clockSafety
    split
    · exact .ok
    · split
      · exact .ok
      · split
        · exact .ok
        · exact .ok

/-- The hooks that are called with an invoice. -/
theorem legal_hooks {inv : HoldRow} : Legal (ctx.holdCreated inv db) ∧
    Legal (ctx.holdCreateFailed inv db) ∧ Legal (ctx.holdAccepted inv db) ∧
    Legal (ctx.holdNodeCancelled inv db) ∧
    ∀ final via, Legal (ctx.holdDisposed inv final via db) := by
  refine ⟨?_, ?_, ?_, ?_, fun final via => ?_⟩
  · unfold LnCtx.holdCreated
    split
    · split <;> exact .ok
    · split
      · split <;> exact .ok
      · exact .ok
    · split
      · split
        · exact legal_updateOrder
        · exact .ok
      · exact .ok
    · exact .ok
  · unfold LnCtx.holdCreateFailed
    split
    · exact .ok
    · split
      · split
        · exact legal_revertClaim
        · exact .ok
      · exact .ok
    · split
      · split
        · exact legal_updateOrder
        · exact .ok
      · exact .ok
    · exact .ok
  · unfold LnCtx.holdAccepted
    split
    · unfold LnCtx.onCustomerDepositAccepted
      split
      · exact .ok
      · split
        · exact .ok
        · exact legal_insertOrder
    · unfold LnCtx.onSponsorDepositAccepted
      split
      · exact .ok
      · split
        · exact .ok
        · exact legal_updateOrder
    · unfold LnCtx.onEscrowAccepted
      split
      · exact .ok
      · iterate 3
          split
          · exact .ok
        exact legal_updateOrder
    · exact .ok
  · unfold LnCtx.holdNodeCancelled
    split
    · exact .ok
    · split
      · split
        · exact legal_revertClaim
        · exact .ok
      · exact .ok
    · split
      · split
        · exact .ok
        · split
          · rename_i hs
            exact (legal_beginClose (by rw [hs]; rfl)).bind fun _ => .ok
          · split
            · split
              · rename_i reason hreason
                exact (legal_beginClose (canTransition_of_expiryReasonFor hreason)).bind fun _ => .ok
              · exact .ok
            · exact .ok
      · exact .ok
    · exact .ok
  · unfold LnCtx.holdDisposed
    split
    · exact .ok
    · split
      · split
        · exact legal_updateOrder
        · exact .ok
      · exact .ok

/-- **The poll.** -/
theorem legal_observe {h : Hash} {lookup : Option HoldLookup} {now : ℤ} :
    Legal (observe ctx.holdHooks now h lookup db) := by
  unfold observe
  split
  · exact .ok
  · iterate 2
      split
      · exact .ok
    split
    · exact .ok
    · unfold noteState
      split
      · dsimp only
        split
        · exact .ok
        · exact legal_hooks.2.2.1
      · split
        · exact .ok
        · split
          · exact legal_hooks.2.2.2.1
          · exact .ok

theorem legal_recordDisposal {h : Hash} {final : HoldFinal} {via : DisposedVia} {now : ℤ} :
    Legal (recordDisposal ctx.holdHooks now h final via db) := by
  unfold recordDisposal
  split
  · exact .ok
  · split
    · exact .ok
    · exact legal_hooks.2.2.2.2 final via

/-- **The end of an effect.** -/
theorem legal_onDone {e : Effect LnEffect} {result : LnResult} : Legal (ctx.onDone e result db) := by
  unfold LnCtx.onDone
  split
  · unfold createDone
    split
    · exact .ok
    · split
      · exact .ok
      · split
        · split
          · exact legal_hooks.2.1
          · exact legal_hooks.1
        · exact legal_hooks.2.1
  · unfold disposeDone
    split
    · exact legal_recordDisposal
    · exact .ok
  · unfold LnCtx.finishClose
    split
    · exact .ok
    · split
      · exact .ok
      · exact Legal.bind (.forEach fun _ _ _ => legal_recordDisposal) fun _ =>
          legal_updateOrder.bind fun _ => .ok
  · unfold LnCtx.payoutDone
    split
    · exact .ok
    · split
      · exact .ok
      · exact legal_updateOrder
      · split
        · exact .ok
        · split
          · exact legal_updateOrder
          · exact .ok
      · iterate 3
          split
          · exact .ok
        exact legal_updateOrder
  · exact .ok

theorem legal_onRetry {e : Effect LnEffect} {error : String} : Legal (ctx.onRetry e error db) := by
  unfold LnCtx.onRetry
  split
  · unfold LnCtx.payoutRetry
    split
    · exact .ok
    · split
      · exact .ok
      · split
        · exact legal_updateOrder
        · exact .ok
  · exact .ok

theorem legal_onDead {e : Effect LnEffect} {error : String} : Legal (ctx.onDead e error db) := by
  unfold LnCtx.onDead
  split
  · unfold LnCtx.abandonClose
    split
    · exact .ok
    · split
      · exact .ok
      · exact legal_updateOrder
  · unfold LnCtx.payoutDead
    split
    · exact .ok
    · exact legal_updateOrder
  · exact .ok

end Transactions

/-- The transactions of the track: a request, a command, a tick of the clock, the answer of a poll,
and what becomes of an effect. -/
inductive LnTransaction
  | request (action : LnAction) (event : LnEvent)
  | command (cmd : LnCommand) (orderId : OrderId) (version : ℕ)
  | clock (startedAt : ℤ) (height : Option ℕ)
  | observe (h : Hash) (lookup : Option HoldLookup)
  | done (e : Effect LnEffect) (result : LnResult)
  | retry (e : Effect LnEffect) (error : String)
  | dead (e : Effect LnEffect) (error : String)

/-- What a transaction does. -/
def LnTransaction.run (ctx : LnCtx) : LnTransaction → LnDb → Except Abort LnDb
  | .request action event, db => (ctx.handle action event db).map Prod.snd
  | .command cmd id version, db => (ctx.command cmd id version db).map Prod.snd
  | .clock startedAt height, db => ctx.clock startedAt height db
  | .observe h lookup, db => LnPay.observe ctx.holdHooks ctx.now h lookup db
  | .done e result, db => ctx.onDone e result db
  | .retry e error, db => ctx.onRetry e error db
  | .dead e error, db => ctx.onDead e error db

/-- **No transaction throws in `beginClose`.** -/
theorem legal_run (ctx : LnCtx) (tx : LnTransaction) (db : LnDb) : Legal (tx.run ctx db) := by
  cases tx with
  | request => exact legal_handle.map
  | command => exact legal_command.map
  | clock => exact legal_clock
  | observe => exact legal_observe
  | done => exact legal_onDone
  | retry => exact legal_onRetry
  | dead => exact legal_onDead

/-! ## What a step may do -/

section Steps

variable {env : LnEnv} {w w' : LnWorld} {i : LnInput} {id : OrderId}

/-- A step makes one change of a state at most. -/
theorem moves_once {a b d : OrderState} (h : w.moves i a b) : ¬ w.moves i b d := by
  intro h'
  cases i with
  | request action =>
    change action.moves a b at h
    change action.moves b d at h'
    unfold LnAction.moves at h
    split at h
    · exact h'
    · exact h'
    · exact h'
    · exact h
  | command =>
    obtain ⟨rfl, rfl⟩ := h
    exact absurd h'.1 (by decide)
  | clock =>
    obtain ⟨rfl, rfl⟩ := h
    exact absurd h'.1 (by decide)
  | observe =>
    obtain ⟨rfl, rfl⟩ | ⟨rfl, rfl⟩ := h
    · obtain ⟨h', -⟩ | ⟨h', -⟩ := h' <;> exact absurd h' (by decide)
    · obtain ⟨h', -⟩ | ⟨h', -⟩ := h' <;> exact absurd h' (by decide)
  | _ =>
    obtain ⟨-, rfl, hb⟩ := h
    obtain ⟨-, rfl, -⟩ := h'
    obtain hb | hb := hb <;> exact absurd hb (by decide)

/-- The end of a close is the only change of a state in its transaction. -/
theorem not_moves_of_closes {a b : OrderState} (h : (w.context env i).closes id) :
    ¬ (w.context env i).moves a b := by
  intro hm
  change w.effectOf i = some (.own (.close id)) at h
  change w.moves i a b at hm
  cases i with
  | start e =>
    obtain ⟨⟨hash, he⟩, -⟩ := hm
    rw [h] at he
    cases he
  | resume =>
    obtain ⟨⟨hash, he⟩, -⟩ := hm
    rw [h] at he
    cases he
  | _ => cases h

/-- No close is begun where one ends. -/
theorem not_begins_of_closes (h : (w.context env i).closes id) : ¬ (w.context env i).begins := by
  intro hb
  have hn : (none : Option (Effect LnEffect)) = some (.own (.close id)) := hb.symm.trans h
  cases hn

end Steps

section Next

variable {c : EdgeCtx} {db : LnDb} {o o' : LnOrderRow} {reason : LnCloseReason}

/-- A change of the state is allowed by the context, and an edge, or it is the end of a close. -/
theorem OrderNext.state_cases (hn : OrderNext c db o o') (hinv : OrderInv c.env db o) :
    o'.state = o.state ∨ (c.moves o.state o'.state ∧ canTransition o.state o'.state = true) ∨
      (c.closes o.orderId ∧ canTransition o.state o'.state = true ∧ o'.pendingClose = none) := by
  cases hn with
  | same => exact .inl rfl
  | close => exact .inl rfl
  | step p hs =>
    cases hs with
    | claim _ hs _ _ hm => exact .inr (.inl ⟨hs ▸ hm, by rw [hs]; rfl⟩)
    | revert hs _ _ hm => exact .inr (.inl ⟨hs ▸ hm, by rw [hs]; rfl⟩)
    | verify _ _ hs _ _ _ _ hm => exact .inr (.inl ⟨hs ▸ hm, by rw [hs]; rfl⟩)
    | escrowed _ hs _ hm => exact .inr (.inl ⟨hs ▸ hm, by rw [hs]; rfl⟩)
    | firstInvoice _ hs _ _ hm => exact .inr (.inl ⟨hs ▸ hm, by rw [hs]; rfl⟩)
    | remit hs _ hm => exact .inr (.inl ⟨hs ▸ hm, by rw [hs]; rfl⟩)
    | finish reason hp hend =>
      -- the end of a close was an edge when the close was begun
      exact .inr (.inr ⟨hend, hinv.closing reason hp, rfl⟩)
    | _ => exact .inl rfl

/-- Where nothing moves and no close begins, an order that is not closing stays as it is. -/
theorem OrderNext.idle (hn : OrderNext c db o o') (hp : o.pendingClose = none) (hb : ¬ c.begins)
    (hm : ∀ a b, ¬ c.moves a b) :
    o'.pendingClose = none ∧ o'.state = o.state ∧ o'.closeReason = o.closeReason := by
  have hnone : ∀ {r}, o.pendingClose = some r → False := fun h => by rw [hp] at h; cases h
  cases hn with
  | same => exact ⟨hp, rfl, rfl⟩
  | close _ _ _ _ hbegin => exact absurd hbegin hb
  | step p hs =>
    cases hs with
    | claim _ _ _ _ hmove => exact absurd hmove (hm _ _)
    | revert _ _ _ hmove => exact absurd hmove (hm _ _)
    | verify _ _ _ _ _ _ _ hmove => exact absurd hmove (hm _ _)
    | escrowed _ _ _ hmove => exact absurd hmove (hm _ _)
    | firstInvoice _ _ _ _ hmove => exact absurd hmove (hm _ _)
    | remit _ _ hmove => exact absurd hmove (hm _ _)
    | abandon _ hr => exact (hnone hr).elim
    | finish _ hr => exact (hnone hr).elim
    | _ => exact ⟨hp, rfl, rfl⟩

/-- What ends a close: it is done or given up, and until then the order stays where it is. -/
theorem OrderNext.closing_next (hn : OrderNext c db o o') (hpc : o.pendingClose = some reason) :
    (o'.pendingClose = some reason ∧ o'.state = o.state) ∨
      (c.closes o.orderId ∧ o'.pendingClose = none ∧ (o'.state = o.state ∨
        (o'.state = reason.rule.terminal ∧ o'.closeReason = some reason))) := by
  have hnone : o.pendingClose = none → False := fun h => by rw [h] at hpc; cases hpc
  cases hn with
  | same => exact .inl ⟨hpc, rfl⟩
  | close _ hp => exact (hnone hp).elim
  | step p hs =>
    cases hs with
    | claim _ _ hp => exact (hnone hp).elim
    | revert _ hp => exact (hnone hp).elim
    | verify _ _ _ hp => exact (hnone hp).elim
    | escrowed _ _ hp => exact (hnone hp).elim
    | firstInvoice _ _ hp => exact (hnone hp).elim
    | remit _ hp => exact (hnone hp).elim
    | abandon _ _ _ hend => exact .inr ⟨hend, rfl, .inl rfl⟩
    | finish r hr hend =>
      obtain rfl := Option.some.inj (hpc.symm.trans hr)
      exact .inr ⟨hend, rfl, .inr ⟨rfl, rfl⟩⟩
    | _ => exact .inl ⟨hpc, rfl⟩

/-- What an ended order keeps. -/
structure EndKept (o o' : LnOrderRow) : Prop where
  state : o'.state = o.state
  closeReason : o'.closeReason = o.closeReason
  payoutSat : o'.payoutSat = o.payoutSat
  customer : o'.customer = o.customer
  sponsor : o'.sponsor = o.sponsor

theorem EndKept.refl (o : LnOrderRow) : EndKept o o := ⟨rfl, rfl, rfl, rfl, rfl⟩

theorem EndKept.trans {o'' : LnOrderRow} (h : EndKept o o') (h' : EndKept o' o'') :
    EndKept o o'' where
  state := h'.state.trans h.state
  closeReason := h'.closeReason.trans h.closeReason
  payoutSat := h'.payoutSat.trans h.payoutSat
  customer := h'.customer.trans h.customer
  sponsor := h'.sponsor.trans h.sponsor

/-- An ended order is not being closed. -/
theorem OrderInv.not_closing {env : LnEnv} (hinv : OrderInv env db o)
    (ht : isTerminalState o.state = true) : o.pendingClose = none := by
  cases hp : o.pendingClose with
  | none => rfl
  | some reason =>
    have hc := hinv.closing reason hp
    rw [canTransition, of_decide_eq_true ht] at hc
    cases hc

/-- An ended order stays as it is. -/
theorem OrderNext.ended (hn : OrderNext c db o o') (hinv : OrderInv c.env db o)
    (ht : isTerminalState o.state = true) : EndKept o o' := by
  have hp := hinv.not_closing ht
  have hstate : ∀ {s : OrderState}, o.state = s → isTerminalState s = true := fun hs => hs ▸ ht
  have hnone : ∀ {r}, o.pendingClose = some r → False := fun h => by rw [hp] at h; cases h
  cases hn with
  | same => exact .refl o
  | close => exact ⟨rfl, rfl, rfl, rfl, rfl⟩
  | step p hs =>
    cases hs with
    | claim _ hs => exact absurd (hstate hs) (by decide)
    | revert hs => exact absurd (hstate hs) (by decide)
    | approve _ _ hs => exact absurd (hstate hs) (by decide)
    | verify _ _ hs => exact absurd (hstate hs) (by decide)
    | unapprove hs => exact absurd (hstate hs) (by decide)
    | escrowed _ hs => exact absurd (hstate hs) (by decide)
    | firstInvoice _ hs => exact absurd (hstate hs) (by decide)
    | remit hs => exact absurd (hstate hs) (by decide)
    | finish _ hr => exact (hnone hr).elim
    | _ => exact ⟨rfl, rfl, rfl, rfl, rfl⟩

end Next

/-! ## A step of the world -/

section World

variable {env : LnEnv} {w w' : LnWorld} {i : LnInput} {id : OrderId} {o : LnOrderRow}
  {reason : LnCloseReason}

/-- What every change of a row keeps, a step keeps. -/
theorem order_of_step (h : Sound env w) (hs : LnWorld.step env w i = some w')
    (ho : getOrder id w.db = some o) {Q : LnOrderRow → Prop} (hQ : Q o)
    (hnext : ∀ db o₁ o₂, OrderInv env db o₁ → o₁.orderId = id →
      OrderNext (w.context env i) db o₁ o₂ → Q o₁ → Q o₂) :
    ∃ o', getOrder id w'.db = some o' ∧ Q o' := by
  -- the invariant of the ledger goes along, for each edge needs it
  have hkeeps := (step_moved h hs).keeps
    (P := fun db => LnInv env w.node db ∧ ∃ o', getOrder id db = some o' ∧ Q o')
    (fun a b hp ⟨hinv, o₁, ho₁, hq⟩ => ⟨hinv.prepared hp, o₁, by rw [hp.getOrder_eq, ho₁], hq⟩)
    (fun a b hm ⟨hinv, o₁, ho₁, hq⟩ => by
      obtain ⟨id', he⟩ := hm
      obtain ⟨o₂, ho₂, hn⟩ := he.order_next ho₁
      exact ⟨he.lnInv hinv, o₂, ho₂,
        hnext a o₁ o₂ (hinv.order id o₁ ho₁) (getOrder_orderId ho₁) hn hq⟩)
    ⟨h.ledger, o, ho, hQ⟩
  exact hkeeps.2

/-- **A committed change of a state is an edge of the table.** -/
theorem state_of_step (h : Sound env w) (hs : LnWorld.step env w i = some w')
    (ho : getOrder id w.db = some o) : ∃ o', getOrder id w'.db = some o' ∧
      (o'.state = o.state ∨ canTransition o.state o'.state = true) := by
  -- after a change nothing else in the transaction can change the state
  have hkept := order_of_step h hs ho
    (Q := fun o' => o'.state = o.state ∨
      (w.moves i o.state o'.state ∧ canTransition o.state o'.state = true) ∨
      ((w.context env i).closes id ∧ canTransition o.state o'.state = true ∧
        o'.pendingClose = none)) (.inl rfl) <| by
    rintro db o₁ o₂ hinv hid hn (hsame | ⟨hm, hc⟩ | ⟨hclose, hc, hp⟩)
    · have hcases := hn.state_cases hinv
      rwa [hsame, hid] at hcases
    · refine .inr (.inl ?_)
      obtain hst | ⟨hm', -⟩ | ⟨hclose, -⟩ := hn.state_cases hinv
      · rw [hst]
        exact ⟨hm, hc⟩
      · exact absurd hm' (moves_once hm)
      · exact absurd hm (not_moves_of_closes hclose)
    · obtain ⟨hp', hst, -⟩ := hn.idle hp (not_begins_of_closes hclose)
        fun _ _ => not_moves_of_closes hclose
      rw [hst]
      exact .inr (.inr ⟨hclose, hc, hp'⟩)
  obtain ⟨o', ho', hq⟩ := hkept
  exact ⟨o', ho', hq.imp_right fun hq => hq.elim And.right fun hq => hq.2.1⟩

/-- **An ended order** stays as it is. -/
theorem ended_of_step (h : Sound env w) (hs : LnWorld.step env w i = some w')
    (ho : getOrder id w.db = some o) (ht : isTerminalState o.state = true) :
    ∃ o', getOrder id w'.db = some o' ∧ EndKept o o' :=
  order_of_step h hs ho (.refl o) fun _ _ _ hinv _ hn hk =>
    hk.trans (hn.ended hinv (by rw [hk.state, ht]))

/-- A close has ended: with the order at the end of its reason, or given up where it was. -/
def CloseEnded (o : LnOrderRow) (reason : LnCloseReason) (o' : LnOrderRow) : Prop :=
  o'.pendingClose = none ∧ (o'.state = o.state ∨
    (o'.state = reason.rule.terminal ∧ o'.closeReason = some reason))

/-- **A closing order** stays where it is until its close ends. -/
theorem closing_of_step (h : Sound env w) (hs : LnWorld.step env w i = some w')
    (ho : getOrder id w.db = some o) (hp : o.pendingClose = some reason) :
    ∃ o', getOrder id w'.db = some o' ∧
      ((o'.pendingClose = some reason ∧ o'.state = o.state) ∨ CloseEnded o reason o') := by
  have hkept := order_of_step h hs ho
    (Q := fun o' => (o'.pendingClose = some reason ∧ o'.state = o.state) ∨
      ((w.context env i).closes id ∧ CloseEnded o reason o')) (.inl ⟨hp, rfl⟩) <| by
    rintro db o₁ o₂ hinv hid hn (⟨hp₁, hst⟩ | ⟨hclose, hp₁, hend⟩)
    · have hcases := hn.closing_next hp₁
      rwa [hst, hid] at hcases
    · obtain ⟨hp₂, hst, hreason⟩ := hn.idle hp₁ (not_begins_of_closes hclose)
        fun _ _ => not_moves_of_closes hclose
      rw [CloseEnded, hst, hreason]
      exact .inr ⟨hclose, hp₂, hend⟩
  obtain ⟨o', ho', hq⟩ := hkept
  exact ⟨o', ho', hq.imp_right And.right⟩

/-! ## Runs -/

/-- An ended order never changes again. -/
theorem ended_of_run (hw : (lnSystem env).Reachable w) {is : List LnInput}
    (hrun : (lnSystem env).run w is = some w') (ho : getOrder id w.db = some o)
    (ht : isTerminalState o.state = true) : ∃ o', getOrder id w'.db = some o' ∧ EndKept o o' := by
  induction is generalizing w o with
  | nil =>
    obtain rfl := Option.some.inj hrun
    exact ⟨o, ho, .refl o⟩
  | cons i is ih =>
    rw [TransitionSystem.run, Option.bind_eq_some_iff] at hrun
    obtain ⟨w₁, hs, hrun⟩ := hrun
    obtain ⟨o₁, ho₁, hk⟩ := ended_of_step (sound_of_reachable hw) hs ho ht
    obtain ⟨o', ho', hk'⟩ := ih (hw.next hs) hrun ho₁ (by rw [hk.state, ht])
    exact ⟨o', ho', hk.trans hk'⟩

/-- However long it takes, a close ends in the state it was begun for, or where it was begun. -/
theorem closing_of_run (hw : (lnSystem env).Reachable w) {is : List LnInput}
    (hrun : (lnSystem env).run w is = some w') (ho : getOrder id w.db = some o)
    (hp : o.pendingClose = some reason) :
    (∃ o', getOrder id w'.db = some o' ∧ o'.pendingClose = some reason ∧ o'.state = o.state) ∨
      ∃ before after w₁ o₁, is = before ++ after ∧ (lnSystem env).run w before = some w₁ ∧
        getOrder id w₁.db = some o₁ ∧ CloseEnded o reason o₁ := by
  induction is generalizing w o with
  | nil =>
    obtain rfl := Option.some.inj hrun
    exact .inl ⟨o, ho, hp, rfl⟩
  | cons i is ih =>
    rw [TransitionSystem.run, Option.bind_eq_some_iff] at hrun
    obtain ⟨w₁, hs, hrun⟩ := hrun
    have hfirst : ∀ js, (lnSystem env).run w (i :: js) = (lnSystem env).run w₁ js := fun js => by
      rw [TransitionSystem.run, hs, Option.bind_some]
    obtain ⟨o₁, ho₁, ⟨hp₁, hst⟩ | hend⟩ := closing_of_step (sound_of_reachable hw) hs ho hp
    · obtain ⟨o', ho', hp', hst'⟩ | ⟨before, after, w₂, o₂, rfl, hpre, ho₂, hend⟩ :=
        ih (hw.next hs) hrun ho₁ hp₁
      · exact .inl ⟨o', ho', hp', hst'.trans hst⟩
      · refine .inr ⟨i :: before, after, w₂, o₂, rfl, (hfirst _).trans hpre, ho₂, ?_⟩
        rw [CloseEnded, hst] at hend
        exact hend
    · exact .inr ⟨[i], is, w₁, o₁, rfl, hfirst [], ho₁, hend⟩

end World

/-- **Order rows follow the state table.**  A step changes an order's state along an edge or not at
all; an ended order keeps its state, reason, payout and parties for good; a close that is under way
is over an edge, and takes that edge or is given up; and no transaction throws in `beginClose`. -/
theorem rows_follow_table (env : LnEnv) :
    (∀ w, (lnSystem env).Reachable w → ∀ id o, getOrder id w.db = some o →
      (∀ i w', w.step env i = some w' → ∃ o', getOrder id w'.db = some o' ∧
        (o'.state = o.state ∨ canTransition o.state o'.state = true)) ∧
      (isTerminalState o.state = true → ∀ is w', (lnSystem env).run w is = some w' →
        ∃ o', getOrder id w'.db = some o' ∧ EndKept o o') ∧
      ∀ reason, o.pendingClose = some reason →
        canTransition o.state reason.rule.terminal = true ∧
        ∀ is w', (lnSystem env).run w is = some w' →
          (∃ o', getOrder id w'.db = some o' ∧ o'.pendingClose = some reason ∧
            o'.state = o.state) ∨
          ∃ before after w₁ o₁, is = before ++ after ∧ (lnSystem env).run w before = some w₁ ∧
            getOrder id w₁.db = some o₁ ∧ CloseEnded o reason o₁) ∧
    ∀ (ctx : LnCtx) (tx : LnTransaction) (db : LnDb), tx.run ctx db ≠ .error .illegalClose := by
  refine ⟨fun w hw id o ho => ⟨fun i w' hs => ?_, fun ht is w' hrun => ?_, fun reason hp => ?_⟩,
    legal_run⟩
  · exact state_of_step (sound_of_reachable hw) hs ho
  · exact ended_of_run hw hrun ho ht
  · have hinv := (sound_of_reachable hw).ledger.order id o ho
    exact ⟨hinv.closing reason hp, fun is w' hrun => closing_of_run hw hrun ho hp⟩

/-- The sample trade is closing as `paid`, over an edge of the table, and comes to that end. -/
theorem rows_follow_table_sample : ∃ w o w' o', sampleRun sampleClosing.dropLast = some w ∧
    getOrder "ord1" w.db = some o ∧ o.pendingClose = some .paid ∧
    canTransition o.state LnCloseReason.paid.rule.terminal = true ∧
    (lnSystem sampleEnv).run w [.resume] = some w' ∧ getOrder "ord1" w'.db = some o' ∧
    CloseEnded o .paid o' ∧ o'.state = .paid ∧
    ∀ is w'', (lnSystem sampleEnv).run w' is = some w'' →
      ∃ o'', getOrder "ord1" w''.db = some o'' ∧ EndKept o' o'' := by
  have hrun : (sampleRun sampleClosing.dropLast).any (fun w =>
      (getOrder "ord1" w.db).any (fun o => o.pendingClose = some .paid) &&
      ((lnSystem sampleEnv).run w [.resume]).any fun w' => (getOrder "ord1" w'.db).any fun o =>
        o.pendingClose = none ∧ o.state = .paid) = true := by decide +kernel
  simp only [Option.any_eq_true, Bool.and_eq_true, decide_eq_true_eq] at hrun
  obtain ⟨w, hw, ⟨o, ho, hpc⟩, w', hs, o', ho', hend, hstate⟩ := hrun
  have hreach := reachable_of_sampleRun hw
  obtain ⟨hedge, hcloses⟩ := ((rows_follow_table sampleEnv).1 w hreach "ord1" o ho).2.2 .paid hpc
  refine ⟨w, o, w', o', hw, ho, hpc, hedge, hs, ho', ?_, hstate,
    ((rows_follow_table sampleEnv).1 w' (hreach.run hs) "ord1" o' ho').2.1 (by rw [hstate]; rfl)⟩
  rcases hcloses [.resume] w' hs with
    ⟨o₁, ho₁, hpc₁, -⟩ | ⟨before, after, w₁, o₁, hsplit, hpre, ho₁, hended⟩
  · obtain rfl := Option.some.inj (ho₁.symm.trans ho')
    rw [hend] at hpc₁
    cases hpc₁
  · -- the one step that there is ended it
    rcases before with - | ⟨i, before⟩
    · obtain rfl := Option.some.inj hpre
      obtain rfl := Option.some.inj (ho.symm.trans ho₁)
      rw [hended.1] at hpc
      cases hpc
    · obtain ⟨rfl, hnil⟩ := List.cons.inj hsplit
      obtain ⟨rfl, rfl⟩ := List.append_eq_nil_iff.mp hnil.symm
      obtain rfl := Option.some.inj (hs.symm.trans hpre)
      obtain rfl := Option.some.inj (ho'.symm.trans ho₁)
      exact hended

end LnPay
