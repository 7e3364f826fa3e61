/-
# A closing order is frozen (`daemon/src/ln/notify.ts`, `messages.ts`)

While an order is being closed no request and no command changes its row or tells
a party of it.  Each handler sees to this by itself: all but two return before
they write.

  accountInfo        ─→ the account is taken, and the sponsor is told to remit
  ln.reveal-request  ─→ the row stays, and the sponsor is asked for the account
-/
import LnPay.LnSound

namespace LnPay

/-! ## What a transaction sends -/

/-- What a party is told: a push of `notify-messages.ts`, or an event of `messages.ts`. -/
inductive LnNotice
  | customerShouldPay | sponsorShouldRegisterInvoice | customerShouldSendAccount
  | customerShouldConfirm | customerCompleted | sponsorCompleted | cancelled | expired | adminClosed
  | disputeResolved (won : Bool)
  | designatedArrived
  | sponsorShouldRemit
  | invoiceRejected (reason : String)
  | revealRequest
  deriving DecidableEq, Repr

/-- A notice, the one it goes to, and the order it is about. -/
abbrev Sent := OrderId × Pubkey × LnNotice

/-- `notifyLnTransition`. -/
def transitionNotices (order : LnOrderRow) : List (Pubkey × LnNotice) :=
  let toCustomer (n : LnNotice) := [(order.customer, n)]
  let toSponsor (n : LnNotice) := order.sponsor.toList.map (·, n)
  match order.state with
  | .requested | .claimed => []
  | .verified => toCustomer .customerShouldPay
  | .escrowed => toSponsor .sponsorShouldRegisterInvoice
  | .invoiced => toCustomer .customerShouldSendAccount
  | .remitted => toCustomer .customerShouldConfirm
  | .paid => toCustomer .customerCompleted ++ toSponsor .sponsorCompleted
  | .cancelled => toCustomer .cancelled ++ toSponsor .cancelled
  | .expired => toCustomer .expired ++ toSponsor .expired
  | .adminClosed => toCustomer .adminClosed ++ toSponsor .adminClosed
  | .sponsorWins => toCustomer (.disputeResolved false) ++ toSponsor (.disputeResolved true)
  | .customerWins => toCustomer (.disputeResolved true) ++ toSponsor (.disputeResolved false)

/-- The answers of `sponsorInvoice` that go out as `CLAIM_PRICE_ERROR`. -/
def invoiceRejections : List String :=
  ["rejected:DECODE_FAILED", "rejected:AMOUNT_MISMATCH", "rejected:EXPIRES_TOO_SOON",
    "rejected:ESCROW_ENDING_SOON"]

/-- What a request sends, by its answer and the order before and after; `quiet` says whether the
window of a designated sponsor is over. -/
def requestNotices (quiet : Pubkey → Bool) (action : LnAction) (event : LnEvent)
    (answer : HandlerResult) (before after : Option LnOrderRow) : List (Pubkey × LnNotice) :=
  match action, answer, before, after with
  | .designatedOrderRequest, .ok, _, some order =>
    (order.designatedSponsor.filter quiet).toList.map (·, .designatedArrived)
  | .sponsorInvoice, .ignored reason, _, _ =>
    if reason ∈ invoiceRejections then [(event.pubkey, .invoiceRejected reason)] else []
  | .sponsorInvoice, .ok, some order, some updated =>
    if order.state = .escrowed then transitionNotices updated else []
  | .accountInfo, .ok, _, some order => order.sponsor.toList.map (·, .sponsorShouldRemit)
  | .remitRequest, .ok, _, some order => transitionNotices order
  | _, _, _, _ => []

/-- What a command sends. -/
def commandNotices (cmd : LnCommand) (error : Option String) (order : Option LnOrderRow) :
    List (Pubkey × LnNotice) :=
  match cmd, error, order with
  | .revealRequest, none, some order => order.sponsor.toList.map (·, .revealRequest)
  | _, _, _ => []

/-- What the transaction of an input sends about an order; nothing when it is rolled back. -/
def LnWorld.sent (env : LnEnv) (quiet : Pubkey → Bool) (w : LnWorld) : LnInput → List Sent
  | .request action event price =>
    match extractOrderId event.tags, LnCtx.handle ⟨env, w.now, price⟩ action event w.db with
    | some orderId, .ok (answer, db) =>
      (requestNotices quiet action event answer (getOrder orderId w.db) (getOrder orderId db)).map
        (orderId, ·)
    | _, _ => []
  | .command cmd orderId version price =>
    match LnCtx.command ⟨env, w.now, price⟩ cmd orderId version w.db with
    | .ok (error, db) => (commandNotices cmd error (getOrder orderId db)).map (orderId, ·)
    | .error _ => []
  | _ => []

/-! ## Closing orders -/

/-- A request of a user or a command of an operator. -/
def LnInput.byUser : LnInput → Bool
  | .request _ _ _ | .command _ _ _ _ => true
  | _ => false

/-- A request or command leaves the rows of the closing orders as they are and tells nobody of
them. -/
def ClosingFrozen (env : LnEnv) (w : LnWorld) (i : LnInput) : Prop :=
  ∀ id o, getOrder id w.db = some o → o.pendingClose ≠ none → i.byUser = true →
    (∀ w', w.step env i = some w' → getOrder id w'.db = some o) ∧
      ∀ quiet, ∀ s ∈ w.sent env quiet i, s.1 ≠ id

/-- An account that the checks of `accountInfo` let through. -/
def TakesAccount (action : LnAction) (event : LnEvent) (order : LnOrderRow) : Prop :=
  action = .accountInfo ∧ event.pubkey = order.customer ∧
    (order.state = .invoiced ∨ order.state = .remitted) ∧
    ∃ commitment, tagValue event.tags "commitment" = some commitment ∧ isHex64 commitment = true ∧
      order.accountCommitment ≠ some commitment

/-- The input is an account, or a call for one, that concerns a closing order. -/
def ConcernsClosing (w : LnWorld) (i : LnInput) : Prop :=
  ∃ id o, getOrder id w.db = some o ∧ o.pendingClose ≠ none ∧
    match i with
    | .request action event _ =>
      (extractOrderId event.tags).filter (· ≠ "") = some id ∧ TakesAccount action event o
    | .command cmd orderId version _ => cmd = .revealRequest ∧ orderId = id ∧ version = o.version ∧
        o.sponsor ≠ none ∧ o.accountCommitment ≠ none
    | _ => False

/-! ## Requests -/

section Requests

variable {env : LnEnv} {node : LnNode} {ctx : LnCtx} {db db' : LnDb} {id : OrderId} {o : LnOrderRow}
  {action : LnAction} {event : LnEvent} {answer : HandlerResult}

/-- The context in which everything is allowed: frames do not depend on it. -/
def EdgeCtx.free (ctx : LnCtx) : EdgeCtx :=
  ⟨ctx.env, ctx.now, fun _ => none, fun _ => True, fun _ _ => True, True, fun _ => True,
    fun _ => True, fun _ => True, fun _ => True, fun _ _ => True, True, fun _ => True,
    fun _ => True⟩

/-- A transaction about one order leaves the others alone. -/
theorem getOrder_of_leads {id' : OrderId} {r : Except Abort LnDb} {c : EdgeCtx}
    (h : Leads (LnEdge c id') db r) (hne : id ≠ id') (hr : r = .ok db') :
    getOrder id db' = getOrder id db :=
  (h db' hr).keeps (P := fun x => getOrder id x = getOrder id db)
    (fun _ _ he hx => (he.getOrder_of_ne hne).trans hx) rfl

/-- A request that is not about the order leaves its row alone. -/
theorem getOrder_handle_of_ne (h : ctx.handle action event db = .ok (answer, db'))
    (hne : extractOrderId event.tags ≠ some id) : getOrder id db' = getOrder id db := by
  have hsnd : (ctx.handle action event db).map Prod.snd = .ok db' := by
    rw [h]
    rfl
  have hleads : Leads (LnAbout (EdgeCtx.free ctx) event) db
      ((((EdgeCtx.free ctx).ctx ctx.price).handle action event db).map Prod.snd) :=
    handle_about trivial (fun _ => trivial) (fun _ _ _ => trivial) trivial fun _ _ _ => trivial
  refine (hleads db' hsnd).keeps (P := fun x => getOrder id x = getOrder id db) ?_ rfl
  rintro a b ⟨id', hid, he⟩ ha
  refine (he.getOrder_of_ne ?_).trans ha
  rintro rfl
  exact hne hid

/-- What is answered to a request about a closing order, and that nothing is written. -/
structure LnRefused (db : LnDb) (r : Handled) : Prop where
  exists_reason : ∃ reason, reason ∉ invoiceRejections ∧ r = .ok (.ignored reason, db)

theorem refused_ignored {reason : String} (h : reason ∉ invoiceRejections) :
    LnRefused db (LnCtx.ignored reason db) :=
  ⟨reason, h, rfl⟩

variable (ctx action) in
/-- Every request about a closing order is refused, but an account. -/
theorem refused_of_closing (hinv : LnInv env node db) (ho : getOrder id db = some o)
    (hp : o.pendingClose ≠ none) (hid : extractOrderId event.tags = some id)
    (hnot : ¬ ((extractOrderId event.tags).filter (· ≠ "") = some id ∧ TakesAccount action event o)) :
    action = .orderRequest ∨ action = .designatedOrderRequest ∨
      LnRefused db (ctx.handle action event db) := by
  have hclosing : o.pendingClose.isSome = true := Option.isSome_iff_ne_none.mpr hp
  have hwith : ∀ {handler : LnEvent → LnOrderRow → LnDb → Handled},
      ((extractOrderId event.tags).filter (· ≠ "") = some id → LnRefused db (handler event o db)) →
      LnRefused db (LnCtx.withOrder handler event db) := by
    intro handler hrefused
    unfold LnCtx.withOrder
    split
    · exact refused_ignored (by decide)
    · rename_i id' hid'
      obtain rfl := Option.some.inj (hid.symm.trans (Option.filter_eq_some_iff.mp hid').1)
      rw [ho]
      exact hrefused hid'
  cases action with
  | orderRequest => exact .inl rfl
  | designatedOrderRequest => exact .inr (.inl rfl)
  | claim =>
    refine .inr (.inr (hwith fun _ => ?_))
    rw [LnCtx.claim, if_pos hclosing]
    exact refused_ignored (by decide)
  | sponsorInvoice =>
    refine .inr (.inr (hwith fun _ => ?_))
    unfold LnCtx.sponsorInvoice
    by_cases hsender : some event.pubkey ≠ o.sponsor
    · rw [if_pos hsender]
      exact refused_ignored (by decide)
    · rw [if_neg hsender, if_pos hclosing]
      exact refused_ignored (by decide)
  | accountInfo =>
    refine .inr (.inr (hwith fun hid' => ?_))
    unfold LnCtx.accountInfo
    split
    · exact refused_ignored (by decide)
    · rename_i hcustomer
      split
      · exact refused_ignored (by decide)
      · rename_i hs
        split
        · exact refused_ignored (by decide)
        · rename_i commitment hcommitment
          split
          · exact refused_ignored (by decide)
          · rename_i hnew
            obtain ⟨htag, hhex⟩ := Option.filter_eq_some_iff.mp hcommitment
            exact absurd ⟨hid', rfl, not_not.mp hcustomer, by tauto, commitment, htag, hhex, hnew⟩ hnot
  | remitRequest =>
    refine .inr (.inr (hwith fun _ => ?_))
    unfold LnCtx.remitRequest
    split
    · exact refused_ignored (by decide)
    · exact refused_ignored (by decide)
  | paymentConfirm =>
    refine .inr (.inr (hwith fun _ => ?_))
    unfold LnCtx.paymentConfirm
    split
    · exact refused_ignored (by decide)
    · exact refused_ignored (by decide)
  | cancelRequest =>
    refine .inr (.inr ?_)
    change LnRefused db (ctx.cancelRequest event db)
    unfold LnCtx.cancelRequest
    split
    · exact refused_ignored (by decide)
    · rename_i id' hid'
      obtain rfl := Option.some.inj (hid.symm.trans (Option.filter_eq_some_iff.mp hid').1)
      rw [hinv.noDraft id (by rw [ho]; exact Option.some_ne_none o), ho]
      dsimp only
      split
      · exact refused_ignored (by decide)
      · exact refused_ignored (by decide)

variable (ctx) in
/-- An order is not made again. -/
theorem getOrder_of_made (ho : getOrder id db = some o)
    (haction : action = .orderRequest ∨ action = .designatedOrderRequest)
    (hid : extractOrderId event.tags = some id) : ∃ reason,
      ctx.handle action event db = .ok (.ignored reason, db) := by
  have hblocked : ∀ {id' : OrderId} {p : OrderId → Bool} {price deadline : Option ℤ},
      (extractOrderId event.tags).filter p = some id' →
      ctx.orderTermsBlocker id' price deadline db ≠ none := by
    intro id' p price deadline hid' hfree
    obtain rfl := Option.some.inj (hid.symm.trans (Option.filter_eq_some_iff.mp hid').1)
    rw [(orderTermsBlocker_eq_none hfree).1] at ho
    cases ho
  obtain rfl | rfl := haction
  · change ∃ reason, ctx.orderRequest event db = _
    unfold LnCtx.orderRequest
    split
    · exact ⟨_, rfl⟩
    · rename_i id' hid'
      dsimp only
      split
      · exact ⟨_, rfl⟩
      · rename_i hfree
        exact absurd hfree (hblocked hid')
  · change ∃ reason, ctx.designatedOrderRequest event db = _
    unfold LnCtx.designatedOrderRequest
    split
    · exact ⟨_, rfl⟩
    · rename_i id' hid'
      split
      · exact ⟨_, rfl⟩
      · exact ⟨_, rfl⟩
      · split
        · exact ⟨_, rfl⟩
        · split
          · exact ⟨_, rfl⟩
          · rename_i hfree
            exact absurd hfree (hblocked hid')

variable (ctx) in
/-- An account that is let through is written. -/
theorem accountCommitment_of_takes (ho : getOrder id db = some o)
    (hid : (extractOrderId event.tags).filter (· ≠ "") = some id) (h : TakesAccount action event o) :
    ∃ db' o', ctx.handle action event db = .ok (.ok, db') ∧ getOrder id db' = some o' ∧
      o'.accountCommitment ≠ o.accountCommitment := by
  obtain ⟨rfl, hcustomer, hs, commitment, htag, hhex, hnew⟩ := h
  obtain rfl := getOrder_orderId ho
  have hcommitment : (tagValue event.tags "commitment").filter isHex64 = some commitment :=
    Option.filter_eq_some_iff.mpr ⟨htag, hhex⟩
  have hstate : ¬ (o.state ≠ .invoiced ∧ o.state ≠ .remitted) := by tauto
  have hupdate : ∃ db', updateOrder ctx.now o.orderId (fun p => { p with
      accountSentAt := some (o.accountSentAt.getD ctx.now)
      accountCommitment := some commitment }) db = .ok db' := by
    rw [updateOrder, ho]
    exact ⟨_, rfl⟩
  obtain ⟨db', hdb'⟩ := hupdate
  refine ⟨db', _, ?_, getOrder_updateOrder ho hdb', fun heq => hnew heq.symm⟩
  change LnCtx.withOrder ctx.accountInfo event db = _
  rw [LnCtx.withOrder, hid]
  dsimp only
  rw [ho]
  dsimp only
  rw [LnCtx.accountInfo, if_neg (not_not.mpr hcustomer), if_neg hstate, hcommitment]
  dsimp only
  rw [if_neg hnew, hdb']
  rfl

end Requests

/-! ## Commands -/

section Commands

variable {env : LnEnv} {node : LnNode} {ctx : LnCtx} {db db' : LnDb} {id : OrderId} {o : LnOrderRow}
  {cmd : LnCommand} {version : ℕ} {error : Option String}

/-- An order that is being closed is not being paid out. -/
theorem not_payable_of_closing (hinv : OrderInv env db o) (hp : o.pendingClose ≠ none) :
    ¬ o.payable := by
  obtain ⟨reason, hreason⟩ := Option.ne_none_iff_exists'.mp hp
  have ht := hinv.closing reason hreason
  rintro (hs | hs)
  · rw [hs] at ht
    exact absurd ht (by simp [canTransition, OrderState.transitions])
  · rw [hs] at ht
    exact absurd ht (by simp [canTransition, OrderState.transitions])

theorem beginClose_of_closing {reason : LnCloseReason} (hp : o.pendingClose ≠ none) :
    ctx.beginClose o reason db = .ok (false, db) := by
  rw [LnCtx.beginClose, if_pos (.inl (Option.isSome_iff_ne_none.mpr hp))]

/-- No command writes a closing order. -/
theorem getOrder_command_of_closing (hinv : LnInv env node db) (ho : getOrder id db = some o)
    (hp : o.pendingClose ≠ none) (h : ctx.runCommand cmd o db = .ok (error, db')) :
    getOrder id db' = some o := by
  have hclosing : o.pendingClose.isSome = true := Option.isSome_iff_ne_none.mpr hp
  have hpay : ¬ (o.state = .paid ∨ o.state = .sponsorWins) :=
    not_payable_of_closing (hinv.order id o ho) hp
  have hsame : ∀ {e : Option String}, Except.ok (ε := Abort) (e, db) = .ok (error, db') →
      getOrder id db' = some o := by
    intro e he
    rw [← (Prod.mk.inj (Except.ok.inj he)).2]
    exact ho
  cases cmd with
  | approve =>
    -- a closing order is blocked, whichever reason comes first
    change ctx.approve o db = _ at h
    have hblocked : ∃ blocker, ctx.approveBlocker o db = some blocker := by
      unfold LnCtx.approveBlocker
      split
      · exact ⟨_, rfl⟩
      · exact ⟨_, rfl⟩
    obtain ⟨blocker, hblocker⟩ := hblocked
    rw [LnCtx.approve, hblocker] at h
    exact hsame h
  | revertClaim =>
    change ctx.cmdRevertClaim o db = _ at h
    unfold LnCtx.cmdRevertClaim at h
    split at h
    · exact hsame h
    · exact hsame h
  | rule winner =>
    change ctx.cmdRule winner o db = _ at h
    unfold LnCtx.cmdRule at h
    split at h
    · exact hsame h
    · split at h
      · exact hsame h
      · rw [beginClose_of_closing hp] at h
        exact hsame h
  | forceClose =>
    change ctx.cmdForceClose o db = _ at h
    unfold LnCtx.cmdForceClose at h
    split at h
    · exact hsame h
    · rw [beginClose_of_closing hp] at h
      exact hsame h
  | retryPayout =>
    change LnCtx.cmdRetryPayout o db = _ at h
    rw [LnCtx.cmdRetryPayout, if_pos (by tauto)] at h
    exact hsame h
  | manualPayout =>
    change ctx.cmdManualPayout o db = _ at h
    rw [LnCtx.cmdManualPayout, if_pos (by tauto)] at h
    exact hsame h
  | markDisbursed =>
    change ctx.cmdMarkDisbursed o db = _ at h
    unfold LnCtx.cmdMarkDisbursed at h
    split at h
    · exact hsame h
    · split at h
      · exact hsame h
      · -- a payout by hand is of an order that has ended
        rename_i hmanual
        exact absurd ((hinv.order id o ho).manual (by rw [not_not.mp hmanual]; rfl)) hpay
  | revealRequest =>
    change LnCtx.cmdRevealRequest o db = _ at h
    unfold LnCtx.cmdRevealRequest at h
    split at h
    · exact hsame h
    · split at h
      · exact hsame h
      · exact hsame h

/-- A command on another order leaves the row alone, one on this order does not write it. -/
theorem getOrder_command {orderId : OrderId} (hinv : LnInv env node db) (ho : getOrder id db = some o)
    (hp : o.pendingClose ≠ none) (h : ctx.command cmd orderId version db = .ok (error, db')) :
    getOrder id db' = some o := by
  unfold LnCtx.command at h
  split at h
  · rw [← (Prod.mk.inj (Except.ok.inj h)).2]
    exact ho
  · rename_i order horder
    split at h
    · rw [← (Prod.mk.inj (Except.ok.inj h)).2]
      exact ho
    · by_cases hid : id = orderId
      · subst hid
        obtain rfl := Option.some.inj (horder.symm.trans ho)
        exact getOrder_command_of_closing hinv ho hp h
      · have hleads : Leads (LnEdge (EdgeCtx.free ctx) orderId) db
            ((((EdgeCtx.free ctx).ctx ctx.price).runCommand cmd order db).map Prod.snd) :=
          runCommand_leads (fun _ => trivial) horder trivial trivial
        rw [← ho]
        refine getOrder_of_leads hleads hid ?_
        change (ctx.runCommand cmd order db).map Prod.snd = .ok db'
        rw [h]
        rfl

/-- A command that sends something is a call for the account. -/
theorem revealRequest_of_notices {s : Pubkey × LnNotice} (ho : getOrder id db = some o)
    (h : ctx.command cmd id version db = .ok (error, db'))
    (hs : s ∈ commandNotices cmd error (getOrder id db')) :
    cmd = .revealRequest ∧ version = o.version ∧ o.sponsor ≠ none ∧ o.accountCommitment ≠ none := by
  unfold commandNotices at hs
  split at hs
  · rename_i order horder
    rw [LnCtx.command, ho] at h
    dsimp only at h
    split at h
    · cases (Prod.mk.inj (Except.ok.inj h)).1
    · rename_i hversion
      change LnCtx.cmdRevealRequest o db = _ at h
      unfold LnCtx.cmdRevealRequest at h
      split at h
      · cases (Prod.mk.inj (Except.ok.inj h)).1
      · rename_i hsponsor
        split at h
        · cases (Prod.mk.inj (Except.ok.inj h)).1
        · rename_i hcommitment
          exact ⟨rfl, (not_not.mp hversion).symm, hsponsor, hcommitment⟩
  · exact absurd hs (by simp)

end Commands

/-! ## One step -/

section Step

variable {env : LnEnv} {w : LnWorld} {i : LnInput}

/-- What no account and no call for one concerns stays frozen. -/
theorem closingFrozen_of_not (hinv : LnInv env w.node w.db) (hnot : ¬ ConcernsClosing w i) :
    ClosingFrozen env w i := by
  intro id o ho hp huser
  cases i with
  | request action event price =>
    by_cases hid : extractOrderId event.tags = some id
    · have hrefused : ∃ reason, LnCtx.handle ⟨env, w.now, price⟩ action event w.db =
          .ok (.ignored reason, w.db) ∧ (action = .sponsorInvoice → reason ∉ invoiceRejections) := by
        have hcases := refused_of_closing ⟨env, w.now, price⟩ action hinv ho hp hid
          fun htakes => hnot ⟨id, o, ho, hp, htakes⟩
        obtain haction | haction | hrefused := hcases
        · obtain ⟨reason, hreason⟩ :=
            getOrder_of_made ⟨env, w.now, price⟩ ho (.inl haction) hid
          exact ⟨reason, hreason, fun h => absurd (haction.symm.trans h) (by decide)⟩
        · obtain ⟨reason, hreason⟩ :=
            getOrder_of_made ⟨env, w.now, price⟩ ho (.inr haction) hid
          exact ⟨reason, hreason, fun h => absurd (haction.symm.trans h) (by decide)⟩
        · obtain ⟨reason, hkept, hreason⟩ := hrefused.exists_reason
          exact ⟨reason, hreason, fun _ => hkept⟩
      obtain ⟨reason, hhandle, hkept⟩ := hrefused
      constructor
      · intro w' hs
        obtain rfl := Option.some.inj hs
        rw [LnWorld.transact, hhandle]
        exact ho
      · intro quiet s hmem
        rw [LnWorld.sent, hid, hhandle] at hmem
        have hnone : requestNotices quiet action event (.ignored reason) (getOrder id w.db)
            (getOrder id w.db) = [] := by
          cases action with
          | sponsorInvoice => exact if_neg (hkept rfl)
          | _ => rfl
        dsimp only at hmem
        rw [hnone] at hmem
        cases hmem
    · constructor
      · intro w' hs
        obtain rfl := Option.some.inj hs
        rw [LnWorld.transact]
        cases hhandle : LnCtx.handle ⟨env, w.now, price⟩ action event w.db with
        | error e => exact ho
        | ok r => exact (getOrder_handle_of_ne hhandle hid).trans ho
      · intro quiet s hmem
        rw [LnWorld.sent] at hmem
        split at hmem
        · rename_i orderId answer db horder hhandle
          obtain ⟨n, -, rfl⟩ := List.mem_map.mp hmem
          rintro rfl
          exact hid horder
        · cases hmem
  | command cmd orderId version price =>
    constructor
    · intro w' hs
      obtain rfl := Option.some.inj hs
      rw [LnWorld.transact]
      cases hcommand : LnCtx.command ⟨env, w.now, price⟩ cmd orderId version w.db with
      | error e => exact ho
      | ok r => exact getOrder_command hinv ho hp hcommand
    · intro quiet s hmem
      rw [LnWorld.sent] at hmem
      split at hmem
      · rename_i error db hcommand
        obtain ⟨n, hn, rfl⟩ := List.mem_map.mp hmem
        rintro rfl
        obtain ⟨hcmd, hversion, hsponsor, hcommitment⟩ := revealRequest_of_notices ho hcommand hn
        exact hnot ⟨orderId, o, ho, hp, hcmd, rfl, hversion, hsponsor, hcommitment⟩
      · cases hmem
  | _ => cases huser

/-- An account changes the row, and a call for one is sent. -/
theorem not_closingFrozen (h : ConcernsClosing w i) : ¬ ClosingFrozen env w i := by
  obtain ⟨id, o, ho, hp, h⟩ := h
  intro hfrozen
  cases i with
  | request action event price =>
    obtain ⟨db', o', hhandle, ho', hne⟩ :=
      accountCommitment_of_takes ⟨env, w.now, price⟩ ho h.1 h.2
    have hsame := (hfrozen id o ho hp rfl).1 _ rfl
    rw [LnWorld.transact, hhandle] at hsame
    obtain rfl := Option.some.inj (ho'.symm.trans hsame)
    exact hne rfl
  | command cmd orderId version price =>
    obtain ⟨rfl, rfl, rfl, hsponsor, hcommitment⟩ := h
    obtain ⟨sponsor, hsp⟩ := Option.ne_none_iff_exists'.mp hsponsor
    have hcommand : LnCtx.command ⟨env, w.now, price⟩ .revealRequest orderId o.version w.db =
        .ok (none, w.db) := by
      rw [LnCtx.command, ho]
      dsimp only
      rw [if_neg (not_not.mpr rfl)]
      change LnCtx.cmdRevealRequest o w.db = _
      rw [LnCtx.cmdRevealRequest, if_neg hsponsor, if_neg hcommitment]
    refine (hfrozen orderId o ho hp rfl).2 (fun _ => true) (orderId, sponsor, .revealRequest) ?_ rfl
    rw [LnWorld.sent, hcommand]
    dsimp only
    rw [ho, commandNotices, hsp]
    exact List.mem_singleton.mpr rfl
  | _ => exact h.elim

end Step

/-! ## In every run -/

/-- **A closing order is frozen.**  In every run, no request and no command changes the row of an order
that is being closed or tells anybody of it, if and only if none is an account, or a call for one, that
concerns a closing order. -/
theorem closing_frozen_iff (env : LnEnv) (now : ℤ) (is : List LnInput) :
    (lnSystem env).Along (ClosingFrozen env) (LnWorld.initial now) is ↔
      (lnSystem env).Along (fun w i => ¬ ConcernsClosing w i) (LnWorld.initial now) is := by
  have hok : ∀ s is, (lnSystem env).Along (fun _ _ => True) s is := by
    intro s is
    induction is generalizing s with
    | nil => trivial
    | cons i is ih => exact ⟨trivial, fun s' _ => ih s'⟩
  refine TransitionSystem.along_congr (fun w i hw _ => ?_) (.init ⟨now, rfl⟩) (hok _ is)
  constructor
  · intro hfrozen hconcerns
    exact not_closingFrozen hconcerns hfrozen
  · exact closingFrozen_of_not (sound_of_reachable hw).ledger

/-! ## An account over an escrow that is being taken -/

/-- The trade up to the customer's confirmation, which begins to close it. -/
def sampleConfirmed : List LnInput :=
  sampleOpening ++
  [.accept sampleEscrow 1000, .poll sampleEscrow, .observe,
    .request .sponsorInvoice (sampleEvent 'b' samplePubkey_b [["bolt11", "lnbc-sponsor"]]) none,
    .request .remitRequest (sampleEvent 'b' samplePubkey_b []) none,
    .request .paymentConfirm (sampleEvent 'a' samplePubkey_a []) none]

/-- Then the customer sends an account. -/
def sampleLateAccount : LnInput :=
  .request .accountInfo (sampleEvent 'a' samplePubkey_a [["commitment", samplePubkey 'c']]) none

/-- The account is taken while the order is being closed. -/
theorem late_account_taken :
    ¬ (lnSystem sampleEnv).Along (ClosingFrozen sampleEnv) (LnWorld.initial 0)
      (sampleConfirmed ++ [sampleLateAccount]) := by
  intro hfrozen
  have hrun : ((sampleRun sampleConfirmed).bind fun w => (getOrder "ord1" w.db).map fun o =>
      decide (o.pendingClose ≠ none ∧ o.customer = samplePubkey 'a' ∧ o.state = .remitted ∧
        o.accountCommitment = none)) = some true := by
    decide +kernel
  obtain ⟨w, hw, hrow⟩ := Option.bind_eq_some_iff.mp hrun
  obtain ⟨o, ho, hrow⟩ := Option.map_eq_some_iff.mp hrow
  obtain ⟨hp, hcustomer, hs, hcommitment⟩ := of_decide_eq_true hrow
  refine not_closingFrozen ⟨"ord1", o, ho, hp, ?_⟩ (hfrozen.drop hw).1
  refine ⟨by decide, rfl, hcustomer.symm, .inr hs, samplePubkey 'c', by decide, by decide, ?_⟩
  rw [hcommitment]
  exact (Option.some_ne_none _).symm

end LnPay
