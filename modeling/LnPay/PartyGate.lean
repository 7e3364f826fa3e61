/-
# Who may move a trade (`daemon/src/ln/handlers.ts`, `daemon/src/onchain/handlers.ts`)

Anybody can sign a request, so every handler looks at its author before it writes.
`LnMayAct` and `OcMayAct` say who an action is for: the customer, the sponsor of
the moment, the one who is named, or anybody while there is no order yet.  A
request of anybody else changes nothing at all, on either track.  Of all the
things a request sends, to the parties, the operators and the node, it sends
none; only the on-chain track tells its author why.
-/
import LnPay.LnFrozen
import LnPay.OcFinality

namespace LnPay

/-! ## What a request sends -/

/-- What a request puts on the queue beside the effects that the ledger keeps, and for whom: notices of
type `ν` and rejections are for one reader, alerts and new orders for the operators, snapshots for all
who follow the order, a probe for the node. -/
inductive Message (ν : Type)
  | notice (recipient : Pubkey) (n : ν)
  | rejected (recipient : Pubkey) (text : String)
  | alert
  | newDesignated
  | snapshot
  | probe
  deriving DecidableEq

/-- `designatedQuietOver`: for a designated sponsor's phone, and for the operators. -/
structure QuietOver where
  sponsor : Pubkey → Bool
  operators : Bool

/-! ## The Lightning track -/

/-- Whom an action on an order is for. -/
def LnOrderRow.isFor (o : LnOrderRow) (action : LnAction) (author : Pubkey) : Prop :=
  match action with
  | .claim =>
    match o.designatedSponsor with
    | some designated => author = designated
    | none => author ≠ o.customer
  | .sponsorInvoice | .remitRequest => some author = o.sponsor
  | .accountInfo | .paymentConfirm | .cancelRequest => author = o.customer
  | .orderRequest | .designatedOrderRequest => False

instance (o : LnOrderRow) (action : LnAction) (author : Pubkey) :
    Decidable (o.isFor action author) := by
  unfold LnOrderRow.isFor
  split
  · split <;> infer_instance
  all_goals infer_instance

/-- The author of a request is one it is for.  What is a draft yet may be withdrawn only, by the one
who has asked for it; an id that is not taken is for anybody. -/
def LnMayAct (action : LnAction) (event : LnEvent) (db : LnDb) : Prop :=
  ∃ id ∈ extractOrderId event.tags,
    (∃ o ∈ getOrder id db, o.isFor action event.pubkey) ∨
      (∃ d ∈ getDraft id db, action = .cancelRequest ∧ event.pubkey = d.customer) ∨
      ((action = .orderRequest ∨ action = .designatedOrderRequest) ∧ getOrder id db = none ∧
        getDraft id db = none)

instance (action : LnAction) (event : LnEvent) (db : LnDb) : Decidable (LnMayAct action event db) :=
  inferInstanceAs (Decidable (∃ id ∈ extractOrderId event.tags, _))

namespace LnCtx

variable {ctx : LnCtx} {action : LnAction} {event : LnEvent} {db : LnDb}

/-- The answers but `ok` that send something. -/
def heardOf : LnAction → List String
  | .sponsorInvoice => invoiceRejections
  | .remitRequest | .paymentConfirm => ["bad-state"]
  | _ => []

/-- What a request sends, by its answer and the order before and after. -/
def messages (quiet : QuietOver) (action : LnAction) (event : LnEvent) (answer : HandlerResult)
    (before after : Option LnOrderRow) : List (Message LnNotice) :=
  (requestNotices quiet.sponsor action event answer before after).map (fun n => .notice n.1 n.2) ++
    (if after = before then [] else [.snapshot]) ++
    match action, answer, before with
    | .designatedOrderRequest, .ok, _ => if quiet.operators then [.newDesignated] else []
    | .sponsorInvoice, .ok, some order => if payoutPending order then [] else [.probe]
    | .remitRequest, .ignored reason, some order | .paymentConfirm, .ignored reason, some order =>
      -- `lateArrival`
      if reason = "bad-state" ∧ isTerminalState order.state = true ∧
          event.createdAt ≤ order.updatedAt then [.alert] else []
    | _, _, _ => []

/-- The request is refused without a word, and the ledger is as it was. -/
def Refused (action : LnAction) (db : LnDb) (r : Handled) : Prop :=
  ∃ reason, reason ∉ heardOf action ∧ r = .ok (.ignored reason, db)

theorem refused_ignored {reason : String} (h : reason ∉ heardOf action) :
    Refused action db (ignored reason db) := ⟨reason, h, rfl⟩

/-- A refusal by a check, or by what follows it. -/
theorem refused_ite {p : Prop} [Decidable p] {reason : String} {r : Handled}
    (hreason : reason ∉ heardOf action) (h : ¬ p → Refused action db r) :
    Refused action db (if p then ignored reason db else r) := by
  by_cases hp : p
  · rw [if_pos hp]
    exact refused_ignored hreason
  · rw [if_neg hp]
    exact h hp

/-- Nothing is sent with such an answer. -/
theorem messages_ignored (quiet : QuietOver) {reason : String} (h : reason ∉ heardOf action)
    (order : Option LnOrderRow) :
    messages quiet action event (.ignored reason) order order = [] := by
  unfold messages
  rw [if_pos rfl]
  cases action with
  | sponsorInvoice =>
    have hother : reason ∉ invoiceRejections := h
    rw [requestNotices, if_neg hother]
    rfl
  | remitRequest | paymentConfirm =>
    have hother : reason ≠ "bad-state" := fun heq => h (heq ▸ List.mem_singleton_self _)
    cases order with
    | none => rfl
    | some o =>
      dsimp only
      rw [if_neg (not_and_of_not_left _ hother)]
      rfl
  | _ => rfl

/-- An order that is there already blocks the terms. -/
theorem orderTermsBlocker_taken (ctx : LnCtx) {id : OrderId} (price deadline : Option ℤ)
    (h : (getOrder id db).isSome = true ∨ (getDraft id db).isSome = true) :
    ∃ reason, ctx.orderTermsBlocker id price deadline db = some reason := by
  unfold orderTermsBlocker
  split
  · exact ⟨_, rfl⟩
  · split
    · exact ⟨_, rfl⟩
    · split
      · exact ⟨_, rfl⟩
      · split
        · exact ⟨_, rfl⟩
        · split
          · exact ⟨_, rfl⟩
          · exact ⟨_, rfl⟩

theorem refused_orderRequest
    (h : ∀ id, extractOrderId event.tags = some id →
      (getOrder id db).isSome = true ∨ (getDraft id db).isSome = true) :
    Refused .orderRequest db (ctx.orderRequest event db) := by
  unfold orderRequest
  split
  · exact refused_ignored (by decide)
  · rename_i id hid
    obtain ⟨reason, hblock⟩ := orderTermsBlocker_taken ctx
      ((tagValue event.tags "price").bind ctx.env.toInteger)
      ((tagValue event.tags "deadline").bind ctx.env.toInteger)
      (h id (Option.filter_eq_some_iff.mp hid).1)
    dsimp only
    rw [hblock]
    exact refused_ignored List.not_mem_nil

theorem refused_designatedOrderRequest
    (h : ∀ id, extractOrderId event.tags = some id →
      (getOrder id db).isSome = true ∨ (getDraft id db).isSome = true) :
    Refused .designatedOrderRequest db (ctx.designatedOrderRequest event db) := by
  unfold designatedOrderRequest
  split
  · exact refused_ignored (by decide)
  · rename_i id hid
    split
    · exact refused_ignored (by decide)
    · exact refused_ignored (by decide)
    · rename_i parsed _
      refine refused_ite (by decide) fun _ => ?_
      obtain ⟨reason, hblock⟩ := orderTermsBlocker_taken ctx parsed.price parsed.deadline
        (h id (Option.filter_eq_some_iff.mp hid).1)
      rw [hblock]
      exact refused_ignored List.not_mem_nil

theorem refused_claim {order : LnOrderRow} (h : ¬ order.isFor .claim event.pubkey) :
    Refused .claim db (ctx.claim event order db) := by
  unfold claim
  refine refused_ite (by decide) fun _ => refused_ite (by decide) fun _ =>
    refused_ite (by decide) fun hself => ?_
  cases hd : order.designatedSponsor with
  | none =>
    rw [LnOrderRow.isFor, hd] at h
    exact absurd hself h
  | some designated =>
    rw [LnOrderRow.isFor, hd] at h
    rw [if_pos ⟨rfl, fun heq => h (Option.some.inj heq)⟩]
    exact refused_ignored (by decide)

/-- A handler of the orders is asked about the order that is named. -/
theorem refused_withOrder {handler : LnEvent → LnOrderRow → LnDb → Handled}
    (h : ∀ id o, extractOrderId event.tags = some id → getOrder id db = some o →
      Refused action db (handler event o db)) : Refused action db (withOrder handler event db) := by
  unfold withOrder
  split
  · exact refused_ignored (by cases action <;> decide)
  · rename_i id hid
    split
    · exact refused_ignored (by cases action <;> decide)
    · rename_i o ho
      exact h id o (Option.filter_eq_some_iff.mp hid).1 ho

theorem refused_cancelRequest (h : ¬ LnMayAct .cancelRequest event db) :
    Refused .cancelRequest db (ctx.cancelRequest event db) := by
  unfold cancelRequest
  split
  · exact refused_ignored (by decide)
  · rename_i id hid
    have hid := (Option.filter_eq_some_iff.mp hid).1
    split
    · rename_i d hd
      refine refused_ite (by decide) fun hsame => ?_
      exact absurd ⟨id, hid, .inr (.inl ⟨d, hd, rfl, (not_not.mp hsame).symm⟩)⟩ h
    · split
      · exact refused_ignored (by decide)
      · rename_i o ho
        refine refused_ite (by decide) fun hsame => ?_
        exact absurd ⟨id, hid, .inl ⟨o, ho, not_not.mp hsame⟩⟩ h

/-- **A request of somebody it is not for is refused.** -/
theorem refused_handle {action : LnAction} (h : ¬ LnMayAct action event db) :
    Refused action db (ctx.handle action event db) := by
  have hfor : ∀ id o, extractOrderId event.tags = some id → getOrder id db = some o →
      ¬ o.isFor action event.pubkey := fun id o hid ho hfor => h ⟨id, hid, .inl ⟨o, ho, hfor⟩⟩
  have htaken : action = .orderRequest ∨ action = .designatedOrderRequest →
      ∀ id, extractOrderId event.tags = some id →
        (getOrder id db).isSome = true ∨ (getDraft id db).isSome = true := by
    intro haction id hid
    by_contra hfree
    rw [not_or, Option.not_isSome_iff_eq_none, Option.not_isSome_iff_eq_none] at hfree
    exact h ⟨id, hid, .inr (.inr ⟨haction, hfree⟩)⟩
  unfold handle
  cases action with
  | orderRequest => exact refused_orderRequest (htaken (.inl rfl))
  | designatedOrderRequest => exact refused_designatedOrderRequest (htaken (.inr rfl))
  | claim => exact refused_withOrder fun id o hid ho => refused_claim (hfor id o hid ho)
  | sponsorInvoice | remitRequest | accountInfo | paymentConfirm =>
    refine refused_withOrder fun id o hid ho => ?_
    -- the author is the first thing the handler looks at
    exact refused_ite (by decide) fun hsame => absurd (not_not.mp hsame) (hfor id o hid ho)
  | cancelRequest => exact refused_cancelRequest h

end LnCtx

/-! ## The on-chain track -/

/-- Whom a signature for a purpose is asked of. -/
def OnchainOrder.signs (o : OnchainOrder) (author : Pubkey) : SignPurpose → Prop
  | .release | .refund | .disputeCustomer | .rescue => author = o.customerPubkey
  | .disputeSponsor => some author = o.sponsorPubkey

instance (o : OnchainOrder) (author : Pubkey) (purpose : SignPurpose) :
    Decidable (o.signs author purpose) := by
  cases purpose <;> exact inferInstanceAs (Decidable (_ = _))

/-- Whom an action on an order is for.  The objection to an account is a dispute that is the sponsor's
alone. -/
def OnchainOrder.isFor (o : OnchainOrder) (action : OcAction) (event : OcEvent) : Prop :=
  match action with
  | .claim =>
    match given o.designatedSponsor with
    | some designated => event.pubkey = designated
    | none => event.pubkey ≠ o.customerPubkey
  | .presig | .remitRequest => some event.pubkey = o.sponsorPubkey
  | .cosign =>
    ∃ purpose ∈ (tagValue event.tags "purpose").bind signPurposeOf, o.signs event.pubkey purpose
  | .dispute =>
    some event.pubkey = o.sponsorPubkey ∨ (event.pubkey = o.customerPubkey ∧
      ¬ (o.state = .presigned ∧ tagValue event.tags "stage" = some "account-unusable"))
  | .accountInfo | .cancelRequest => event.pubkey = o.customerPubkey
  | .orderRequest | .designatedOrderRequest => False

instance (o : OnchainOrder) (action : OcAction) (event : OcEvent) :
    Decidable (o.isFor action event) := by
  unfold OnchainOrder.isFor
  split
  · split <;> infer_instance
  all_goals infer_instance

/-- The author of a request is one it is for.  What is a candidate yet may be withdrawn only, by the
one who has asked for it; an id that is not taken is for anybody. -/
def OcMayAct (action : OcAction) (event : OcEvent) (db : OcDb) : Prop :=
  ∃ id ∈ extractOrderId event.tags,
    (∃ r ∈ getOc id db, r.order.isFor action event) ∨
      (∃ c ∈ candidatesOf id db, action = .cancelRequest ∧ c.isSponsor = false ∧
        c.party = event.pubkey) ∨
      ((action = .orderRequest ∨ action = .designatedOrderRequest) ∧ getOc id db = none ∧
        candidatesOf id db = [])

instance (action : OcAction) (event : OcEvent) (db : OcDb) : Decidable (OcMayAct action event db) :=
  inferInstanceAs (Decidable (∃ id ∈ extractOrderId event.tags, _))

/-- A push of the on-chain `notify-messages.ts`. -/
inductive OcNotice
  | customerShouldFund (designated : Bool)
  | customerShouldSendAccount | customerShouldConfirm | customerShouldSignRefund
  | sponsorShouldPresign | sponsorShouldRemit | sponsorTradeRefunded
  | disputeOpened
  | disputeResolved (won : Bool)
  | released (toSponsor : Bool)
  | refunded | cancelled
  | designatedArrived
  deriving DecidableEq, Repr

/-- `notifyOcTransition`, but for the alert. -/
def onchainTransitionNotices (order : OnchainOrder) : List (Pubkey × OcNotice) :=
  let toCustomer (n : OcNotice) := [(order.customerPubkey, n)]
  let toSponsor (n : OcNotice) := order.sponsorPubkey.toList.map (·, n)
  match order.state with
  | .listed | .settling | .swept => []
  | .bonded => toCustomer (.customerShouldFund (given order.designatedSponsor).isSome)
  | .funded => toSponsor .sponsorShouldPresign
  | .presigned => toCustomer .customerShouldSendAccount
  | .remitted => toCustomer .customerShouldConfirm
  | .disputed => toCustomer .disputeOpened ++ toSponsor .disputeOpened
  | .refunding => toCustomer .customerShouldSignRefund ++ toSponsor .sponsorTradeRefunded
  | .released => toCustomer (.released false) ++ toSponsor (.released true)
  | .refunded => toCustomer .refunded ++ toSponsor .refunded
  | .sponsorWins => toCustomer (.disputeResolved false) ++ toSponsor (.disputeResolved true)
  | .customerWins => toCustomer (.disputeResolved true) ++ toSponsor (.disputeResolved false)
  | .cancelled => toCustomer .cancelled ++ toSponsor .cancelled

/-- The answers `ignored` that come with an `anomaly`. -/
def anomalies (action : OcAction) (purpose : Option SignPurpose) : List String :=
  match action, purpose with
  | .presig, _ => ["no-material"]
  | .cosign, some .rescue => ["live-escrow", "cannot-finalize"]
  | .cosign, _ => ["no-material", "no-presig", "cannot-finalize"]
  | _, _ => []

/-- All of them. -/
def anomalous : List String := ["no-material", "no-presig", "cannot-finalize", "live-escrow"]

theorem mem_anomalous {action : OcAction} {purpose : Option SignPurpose} {reason : String}
    (h : reason ∈ anomalies action purpose) : reason ∈ anomalous := by
  unfold anomalies at h
  unfold anomalous
  split at h <;> simp only [List.mem_cons, List.not_mem_nil, or_false] at h <;>
    simp only [List.mem_cons] <;> tauto

namespace OcCtx

variable {P : Type} {ctx : OcCtx P} {event : OcEvent} {db : OcDb}

/-- What a request that is accepted sends, by the row before and after. -/
def acceptedMessages (quiet : QuietOver) (action : OcAction) (before after : Option OcRow) :
    List (Message OcNotice) :=
  let notices (order : OnchainOrder) := (onchainTransitionNotices order).map fun n =>
    Message.notice n.1 n.2
  match action, before, after with
  | .designatedOrderRequest, _, some row =>
    (((given row.order.designatedSponsor).filter quiet.sponsor).toList.map
      (.notice · .designatedArrived)) ++ if quiet.operators then [.newDesignated] else []
  | .claim, some old, some row =>
    -- the claim of a designated order is a claim at once, the others wait for the deposit
    if row.order.state = old.order.state then [] else notices row.order
  | .presig, _, some row | .remitRequest, _, some row | .cancelRequest, _, some row =>
    notices row.order
  | .accountInfo, _, some row => row.order.sponsorPubkey.toList.map (.notice · .sponsorShouldRemit)
  | .dispute, some old, some row =>
    -- an objection to the account changes no state, and only the operators hear of it
    (if old.order.state = .remitted then notices row.order else []) ++ [.alert]
  | _, _, _ => []

/-- What a request sends, by its answer and the row before and after. -/
def messages (quiet : QuietOver) (action : OcAction) (event : OcEvent) (answer : OcAnswer)
    (before after : Option OcRow) : List (Message OcNotice) :=
  (match answer with
    | .ok => acceptedMessages quiet action before after
    | .ignored reason =>
      if reason ∈ anomalies action ((tagValue event.tags "purpose").bind signPurposeOf) then [.alert]
      else []
    | .rejected recipient text => [.rejected recipient text]) ++
  if after = before then [] else [.snapshot]

/-- The request is refused, and the ledger is as it was; no operator is called, and the author alone
is told why. -/
def Refused (event : OcEvent) (db : OcDb) (r : OcHandled) : Prop :=
  (∃ reason, reason ∉ anomalous ∧ r = .ok (.ignored reason, db)) ∨
    ∃ text, r = .ok (.rejected event.pubkey text, db)

theorem refused_ignored {reason : String} (h : reason ∉ anomalous) :
    Refused event db (ignored reason db) := .inl ⟨reason, h, rfl⟩

theorem refused_reject (text : String) : Refused event db (reject event text db) := .inr ⟨text, rfl⟩

theorem db_eq_of_refused {answer : OcAnswer} {db' : OcDb} (h : Refused event db (.ok (answer, db'))) :
    db' = db := by
  obtain ⟨reason, -, heq⟩ | ⟨text, heq⟩ := h
  · exact (Prod.mk.inj (Except.ok.inj heq)).2
  · exact (Prod.mk.inj (Except.ok.inj heq)).2

/-- What is sent with a refusal is a rejection, and goes to the author. -/
theorem messages_refused (quiet : QuietOver) (action : OcAction) {answer : OcAnswer} {db' : OcDb}
    (h : Refused event db (.ok (answer, db'))) (row : Option OcRow) :
    messages quiet action event answer row row = [] ∨
      ∃ text, messages quiet action event answer row row = [.rejected event.pubkey text] := by
  unfold messages
  rw [if_pos rfl, List.append_nil]
  obtain ⟨reason, hreason, heq⟩ | ⟨text, heq⟩ := h
  · obtain ⟨rfl, -⟩ := Prod.mk.inj (Except.ok.inj heq)
    dsimp only
    rw [if_neg fun hmem => hreason (mem_anomalous hmem)]
    exact .inl rfl
  · obtain ⟨rfl, -⟩ := Prod.mk.inj (Except.ok.inj heq)
    exact .inr ⟨text, rfl⟩

/-- A refusal by a check, or by what follows it. -/
theorem refused_ite {p : Prop} [Decidable p] {r r' : OcHandled} (hr : p → Refused event db r)
    (hr' : ¬ p → Refused event db r') : Refused event db (if p then r else r') := by
  by_cases hp : p
  · rw [if_pos hp]
    exact hr hp
  · rw [if_neg hp]
    exact hr' hp

/-- An id that is taken does not pass the gate. -/
theorem orderGate_taken {id : OrderId} (amountSat : Option ℚ) (reserveKrw : Option (Option ℚ))
    (h : (getOc id db).isSome = true ∨ candidatesOf id db ≠ []) :
    ∃ answer, orderGate event id amountSat reserveKrw db = some answer ∧
      Refused event db (.ok (answer, db)) := by
  unfold orderGate
  split
  · exact ⟨_, rfl, refused_ignored (by decide)⟩
  · split
    · exact ⟨_, rfl, refused_ignored (by decide)⟩
    · exact ⟨_, rfl, refused_ignored (by decide)⟩

theorem refused_ocOrderRequest
    (h : ∀ id, extractOrderId event.tags = some id →
      (getOc id db).isSome = true ∨ candidatesOf id db ≠ []) :
    Refused event db (ctx.ocOrderRequest event db) := by
  unfold ocOrderRequest
  split
  · exact refused_ignored (by decide)
  · rename_i id hid
    dsimp only
    split
    · exact refused_ignored (by decide)
    · obtain ⟨answer, hgate, hrefused⟩ := orderGate_taken
        ((tagValue event.tags "amount-sat").bind ctx.env.toNumber)
        ((tagValue event.tags "reserve-krw").map ctx.env.toNumber)
        (h id (Option.filter_eq_some_iff.mp hid).1)
      rw [hgate]
      exact hrefused

theorem refused_ocDesignatedOrderRequest
    (h : ∀ id, extractOrderId event.tags = some id →
      (getOc id db).isSome = true ∨ candidatesOf id db ≠ []) :
    Refused event db (ctx.ocDesignatedOrderRequest event db) := by
  unfold ocDesignatedOrderRequest
  split
  · exact refused_ignored (by decide)
  · rename_i id hid
    split
    · exact refused_ignored (by decide)
    · exact refused_ignored (by decide)
    · split
      · exact refused_ignored (by decide)
      · rename_i t _
        refine refused_ite (fun _ => refused_ignored (by decide)) fun _ => ?_
        obtain ⟨answer, hgate, hrefused⟩ := orderGate_taken (some t.amountSat)
          (t.reserveKrw.map some) (h id (Option.filter_eq_some_iff.mp hid).1)
        rw [hgate]
        exact hrefused

theorem refused_ocClaim
    (h : ∀ id r, extractOrderId event.tags = some id → getOc id db = some r →
      ¬ r.order.isFor .claim event) : Refused event db (ctx.ocClaim event db) := by
  unfold ocClaim
  split
  · exact refused_ignored (by decide)
  · rename_i id hid
    split
    · exact refused_ignored (by decide)
    · split
      · exact refused_reject _
      · rename_i row hrow
        have hfor := h id row (Option.filter_eq_some_iff.mp hid).1
          (Option.filter_eq_some_iff.mp hrow).1
        dsimp only
        refine refused_ite (fun _ => refused_reject _) fun hself => ?_
        cases hd : given row.order.designatedSponsor with
        | none =>
          rw [OnchainOrder.isFor, hd] at hfor
          exact absurd hself hfor
        | some designated =>
          rw [OnchainOrder.isFor, hd] at hfor
          refine refused_ite (fun _ => refused_reject _) fun hnamed => ?_
          rw [Option.any_some, decide_eq_true_eq, not_not] at hnamed
          exact absurd hnamed.symm hfor

/-- A handler of the orders is asked about the order that is named. -/
theorem refused_withRow {handler : OcEvent → OcRow → OcDb → OcHandled}
    (h : ∀ id r, extractOrderId event.tags = some id → getOc id db = some r →
      Refused event db (handler event r db)) : Refused event db (withRow event db handler) := by
  unfold withRow
  split
  · exact refused_ignored (by decide)
  · rename_i id hid
    split
    · exact refused_ignored (by decide)
    · rename_i r hr
      exact h id r (Option.filter_eq_some_iff.mp hid).1 hr

theorem refused_ocRescueCosign {row : OcRow} (h : event.pubkey ≠ row.order.customerPubkey) :
    Refused event db (ctx.ocRescueCosign event row db) := by
  unfold ocRescueCosign
  dsimp only
  split
  · exact refused_ignored (by decide)
  · rename_i key hkey
    exact absurd (of_decide_eq_true (Option.filter_eq_some_iff.mp hkey).2) h

theorem refused_ocCosign {row : OcRow} (h : ¬ row.order.isFor .cosign event) :
    Refused event db (ctx.ocCosign event row db) := by
  unfold ocCosign
  split
  · exact refused_ignored (by decide)
  · rename_i hpurpose
    exact refused_ocRescueCosign fun hsame => h ⟨_, hpurpose, hsame⟩
  · rename_i purpose _ hpurpose
    refine refused_ite (fun _ => refused_ignored (by decide)) fun _ => ?_
    split
    · exact refused_ignored (by decide)
    · rename_i kind hkind
      obtain rfl := of_decide_eq_true (Option.filter_eq_some_iff.mp hkind).2
      dsimp only
      split
      · exact refused_ignored (by decide)
      · rename_i key hkey
        have hsender := of_decide_eq_true (Option.filter_eq_some_iff.mp hkey).2
        refine absurd ⟨_, hpurpose, ?_⟩ h
        cases kind with
        | sponsorWin => exact hsender
        | _ => exact Option.some.inj hsender

theorem refused_ocDispute {row : OcRow} (h : ¬ row.order.isFor .dispute event) :
    Refused event db (ctx.ocDispute event row db) := by
  rw [OnchainOrder.isFor, not_or, not_and, not_not] at h
  obtain ⟨hsponsor, hcustomer⟩ := h
  unfold ocDispute
  refine refused_ite (fun _ => refused_ignored (by decide)) fun hparty => ?_
  -- the one party that is left is the customer, and the dispute an objection to the account
  rw [not_and_or, not_not, not_not] at hparty
  obtain ⟨hstate, hstage⟩ := hcustomer (hparty.resolve_right hsponsor)
  refine refused_ite (fun hremitted => ?_) fun _ => ?_
  · rw [hstate] at hremitted
    cases hremitted
  · rw [if_pos ⟨hstate, hstage⟩, if_neg fun h => hsponsor h.1]
    exact refused_reject _

theorem refused_ocCancel (h : ¬ OcMayAct .cancelRequest event db) :
    Refused event db (ctx.ocCancel event db) := by
  unfold ocCancel
  split
  · exact refused_ignored (by decide)
  · rename_i id hid
    have hid := (Option.filter_eq_some_iff.mp hid).1
    split
    · have hmine : (candidatesOf id db).filter (fun c => !c.isSponsor && c.party = event.pubkey) =
          [] := by
        refine List.filter_eq_nil_iff.mpr fun c hc hyes => ?_
        rw [Bool.and_eq_true, Bool.not_eq_true', decide_eq_true_eq] at hyes
        exact h ⟨id, hid, .inr (.inl ⟨c, hc, rfl, hyes⟩)⟩
      dsimp only
      rw [hmine]
      exact refused_ignored (by decide)
    · rename_i r hr
      refine refused_ite (fun _ => refused_ignored (by decide)) fun hsame => ?_
      exact absurd ⟨id, hid, .inl ⟨r, hr, not_not.mp hsame⟩⟩ h

/-- **A request of somebody it is not for is refused.** -/
theorem refused_handleOc {action : OcAction} (h : ¬ OcMayAct action event db) :
    Refused event db (ctx.handleOc action event db) := by
  have hfor : ∀ id r, extractOrderId event.tags = some id → getOc id db = some r →
      ¬ r.order.isFor action event := fun id r hid hr hfor => h ⟨id, hid, .inl ⟨r, hr, hfor⟩⟩
  have htaken : action = .orderRequest ∨ action = .designatedOrderRequest →
      ∀ id, extractOrderId event.tags = some id →
        (getOc id db).isSome = true ∨ candidatesOf id db ≠ [] := by
    intro haction id hid
    by_contra hfree
    rw [not_or, Option.not_isSome_iff_eq_none, not_not] at hfree
    exact h ⟨id, hid, .inr (.inr ⟨haction, hfree⟩)⟩
  unfold handleOc
  cases action with
  | orderRequest => exact refused_ocOrderRequest (htaken (.inl rfl))
  | designatedOrderRequest => exact refused_ocDesignatedOrderRequest (htaken (.inr rfl))
  | claim => exact refused_ocClaim hfor
  | presig | remitRequest | accountInfo =>
    refine refused_withRow fun id r hid hr => ?_
    -- the author is the first thing the handler looks at
    exact refused_ite (fun _ => refused_ignored (by decide)) fun hsame =>
      absurd (not_not.mp hsame) (hfor id r hid hr)
  | cosign => exact refused_withRow fun id r hid hr => refused_ocCosign (hfor id r hid hr)
  | dispute => exact refused_withRow fun id r hid hr => refused_ocDispute (hfor id r hid hr)
  | cancelRequest => exact refused_ocCancel h

end OcCtx

/-! ## Both tracks -/

/-- What a request of the Lightning track sends; nothing when it is rolled back. -/
def LnWorld.messages (env : LnEnv) (quiet : QuietOver) (w : LnWorld) (action : LnAction)
    (event : LnEvent) (price : Option ℚ) : List (Message LnNotice) :=
  match extractOrderId event.tags, LnCtx.handle ⟨env, w.now, price⟩ action event w.db with
  | some orderId, .ok (answer, db) =>
    LnCtx.messages quiet action event answer (getOrder orderId w.db) (getOrder orderId db)
  | _, _ => []

/-- What a request of the on-chain track sends; nothing when it is rolled back. -/
def OcWorld.messages {P : Type} (env : OcEnv P) (quiet : QuietOver) (w : OcWorld) (action : OcAction)
    (event : OcEvent) (price : Option ℚ) : List (Message OcNotice) :=
  match extractOrderId event.tags, (w.ctx env price).handleOc action event w.db with
  | some orderId, .ok (answer, db) =>
    OcCtx.messages quiet action event answer (getOc orderId w.db) (getOc orderId db)
  | _, _ => []

/-- **Only the right party moves a trade.**  A request of somebody it is not for leaves the whole
world as it was, in every world, and sends nothing to anybody; on the on-chain track its author, and
nobody else, may be told why. -/
theorem only_party_moves :
    (∀ (env : LnEnv) (quiet : QuietOver) (w : LnWorld) (action : LnAction) (event : LnEvent)
      (price : Option ℚ), ¬ LnMayAct action event w.db →
        LnWorld.step env w (.request action event price) = some w ∧
        w.messages env quiet action event price = []) ∧
    ∀ (P : Type) (env : OcEnv P) (quiet : QuietOver) (w : OcWorld) (action : OcAction)
      (event : OcEvent) (price : Option ℚ), ¬ OcMayAct action event w.db →
        w.step env (.request action event price) = some w ∧
        (w.messages env quiet action event price = [] ∨
          ∃ text, w.messages env quiet action event price = [.rejected event.pubkey text]) := by
  refine ⟨fun env quiet w action event price h => ?_, fun P env quiet w action event price h => ?_⟩
  · have hanswer : LnCtx.Refused action w.db (LnCtx.handle ⟨env, w.now, price⟩ action event w.db) :=
      LnCtx.refused_handle h
    obtain ⟨reason, hreason, hrefused⟩ := hanswer
    refine ⟨?_, ?_⟩
    · simp only [LnWorld.step, LnWorld.transact, hrefused, Except.map]
    · unfold LnWorld.messages
      rw [hrefused]
      cases extractOrderId event.tags with
      | none => rfl
      | some id => exact LnCtx.messages_ignored quiet hreason _
  · have hanswer : OcCtx.Refused event w.db ((w.ctx env price).handleOc action event w.db) :=
      OcCtx.refused_handleOc h
    obtain ⟨⟨answer, db⟩, hrefused⟩ : ∃ x, (w.ctx env price).handleOc action event w.db = .ok x := by
      obtain ⟨reason, -, heq⟩ | ⟨text, heq⟩ := hanswer
      · exact ⟨_, heq⟩
      · exact ⟨_, heq⟩
    rw [hrefused] at hanswer
    obtain rfl := OcCtx.db_eq_of_refused hanswer
    refine ⟨?_, ?_⟩
    · simp only [OcWorld.step, OcWorld.transact, hrefused, Except.map]
    · unfold OcWorld.messages
      rw [hrefused]
      cases extractOrderId event.tags with
      | none => exact .inl rfl
      | some id => exact OcCtx.messages_refused quiet action hanswer _

/-- No window holds anything back. -/
def QuietOver.all : QuietOver := ⟨fun _ => true, true⟩

/-- The customer asks to buy the own sale. -/
def ownClaim : OcEvent :=
  ⟨"e9", refundKeys.customer, refundKeys_customer, 0,
    [["a", "38383:daemon:trade-1"], ["sponsor-xonly", refundKeys.sponsor]], .undecryptable⟩

/-- A stranger would withdraw an order that is being traded, without a word; and a customer would buy
the own sale, and is told why not. -/
theorem only_party_moves_sample :
    (∃ w, sampleRun sampleOpening = some w ∧
      LnWorld.step sampleEnv w (.request .cancelRequest (sampleEvent 'b' samplePubkey_b []) none) =
        some w ∧
      w.messages sampleEnv .all .cancelRequest (sampleEvent 'b' samplePubkey_b []) none = []) ∧
    ∃ w text, (ocSystem tradeEnv).run (OcWorld.init 0) (tradeInputs.take 2) = some w ∧
      w.step tradeEnv (.request .claim ownClaim none) = some w ∧
      w.messages tradeEnv .all .claim ownClaim none = [.rejected refundKeys.customer text] := by
  have hln : (sampleRun sampleOpening).any (fun w =>
      ¬ LnMayAct .cancelRequest (sampleEvent 'b' samplePubkey_b []) w.db) = true := by
    decide +kernel
  have hoc : ((ocSystem tradeEnv).run (OcWorld.init 0) (tradeInputs.take 2)).any (fun w =>
      ¬ OcMayAct .claim ownClaim w.db ∧ w.messages tradeEnv .all .claim ownClaim none ≠ []) = true := by
    decide +kernel
  simp only [Option.any_eq_true, decide_eq_true_eq] at hln hoc
  obtain ⟨w, hw, hstranger⟩ := hln
  obtain ⟨w', hw', hown, htold⟩ := hoc
  obtain ⟨hstep, hnone | ⟨text, htext⟩⟩ := only_party_moves.2 String tradeEnv .all w' _ _ none hown
  · exact absurd hnone htold
  · exact ⟨⟨w, hw, only_party_moves.1 sampleEnv .all w _ _ none hstranger⟩, w', text, hw', hstep, htext⟩

end LnPay
