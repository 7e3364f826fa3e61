/-
# Disbursed means paid (`daemon/src/ln/effects.ts`, `handlers.ts`)

The payout executor asks the node about the hash of the sponsor's invoice, and
marks the order when that hash has been paid.  Which order it was paid for is not
asked, and no handler looks at the invoices of the other orders.

* `LnWorld.Claims`: the hashes an order looks to, by the invoice on record and by
  the payout that is under way;
* `LnWorld.Separate`: no two orders look to one hash, and what is paid to it is
  paid for its order;
* `OwnInvoice`: the steps that keep it so.
-/
import LnPay.LnStateTable

namespace LnPay

variable {env : LnEnv} {w w' : LnWorld} {i : LnInput} {id : OrderId}

/-! ## The hashes of an order -/

/-- The hash of the sponsor's invoice. -/
def LnOrderRow.billedHash (env : LnEnv) (o : LnOrderRow) : Option Hash :=
  (o.sponsorInvoice.bind (readBolt11 env)).map Bolt11Info.paymentHash

/-- The invoice on record of an order has this hash. -/
def Billed (env : LnEnv) (db : LnDb) (id : OrderId) (h : Hash) : Prop :=
  ∃ o, getOrder id db = some o ∧ o.billedHash env = some h

/-- The order and the hash of a payout that is under way. -/
def LnAwait.payout : LnAwait → Option (OrderId × Hash)
  | .payoutTrack order _ info | .payoutPay order _ info => some (order.orderId, info.paymentHash)
  | .hold _ | .closeEscrowLookup _ _ _ | .closeEscrowCall _ _ _ _ | .closeLookup _ _ _ _
  | .closeCall _ _ _ _ => none

/-- The order looks to this hash. -/
def LnWorld.Claims (env : LnEnv) (w : LnWorld) (id : OrderId) (h : Hash) : Prop :=
  Billed env w.db id h ∨ ∃ r, w.running = some r ∧ r.await.payout = some (id, h)

/-- The node says that the money has gone out. -/
def LnAnswer.succeeded : LnAnswer → Prop
  | .tracked status => status = some .succeeded
  | .paid status _ => status = .succeeded
  | .node _ | .threw _ => False

/-! ## What a step does to the payments -/

/-- What becomes of the payments. -/
inductive PaymentsNext (env : LnEnv) (w : LnWorld) (i : LnInput) : List Payment → Prop
  | same : PaymentsNext env w i w.payments
  | resolved (index : ℕ) (p : Payment) (status : PayStatus) (hp : w.payments[index]? = some p)
      (hs : p.status = .inFlight) :
      PaymentsNext env w i (w.payments.set index { p with status := status })
  | byHand (h : Hash) (hi : i = .payByHand h) :
      PaymentsNext env w i (w.payments ++ [⟨none, h, .inFlight⟩])
  | paid (id : OrderId) (h : Hash) (hc : w.Claims env id h) :
      PaymentsNext env w i (w.payments ++ [⟨some id, h, .inFlight⟩])

/-- What becomes of the run of an effect that is suspended. -/
inductive RunningNext (env : LnEnv) (w : LnWorld) : Option LnRunning → Prop
  | none : RunningNext env w none
  | same : RunningNext env w w.running
  | answered (e : Effect LnEffect) (a : LnAwait) (ans : LnAnswer) (hr : w.running = some ⟨e, a, .none⟩)
      (ha : a.payout ≠ .none → LnWorld.mayAnswer w.payments a ans) :
      RunningNext env w (some ⟨e, a, some ans⟩)
  | awaits (e : Effect LnEffect) (a : LnAwait)
      (hc : ∀ id h, a.payout = some (id, h) → w.Claims env id h) :
      RunningNext env w (some ⟨e, a, .none⟩)

/-- A turn that awaits a payout is of an order that looks to its hash. -/
theorem claims_of_start (hsound : Sound env w) {e : Effect LnEffect} {a : LnAwait} {h : Hash}
    (hfact : RunFact env w.node w.db e a)
    (ht : LnCtx.startRun ⟨env, w.now, none⟩ e w.db = .await a) (hp : a.payout = some (id, h)) :
    w.Claims env id h := by
  cases a with
  | payoutTrack order bolt11 info =>
    obtain ⟨rfl, rfl⟩ := Prod.mk.inj (Option.some.inj hp)
    obtain ⟨he, hread, -⟩ := hfact
    obtain ⟨ho, hb, -⟩ := payoutTrack_of_start hsound.ledger.order he ht
    refine .inl ⟨order, ho, ?_⟩
    rw [LnOrderRow.billedHash, hb, Option.bind_some, hread]
    rfl
  | payoutPay order bolt11 info =>
    exact absurd ht (not_payoutPay_of_start hsound.ledger.order hfact.1)
  | _ => cases hp

theorem claims_of_resume (hsound : Sound env w) {e : Effect LnEffect} {a a' : LnAwait}
    {ans : LnAnswer} {h : Hash} (hr : w.running = some ⟨e, a, some ans⟩)
    (hfact : RunFact env w.node w.db e a')
    (ht : LnCtx.resumeRun ⟨env, w.now, none⟩ a ans w.db = .await a') (hp : a'.payout = some (id, h)) :
    w.Claims env id h := by
  cases a' with
  | payoutTrack order bolt11 info =>
    exact absurd ht (not_payoutTrack_of_resume (hsound.running e a _ hr).1 hfact.1)
  | payoutPay order bolt11 info =>
    obtain ⟨rfl, -, -, -⟩ := payoutPay_of_resume (hsound.running e a _ hr).1 hfact.1 ht
    exact .inr ⟨_, hr, hp⟩
  | _ => cases hp

/-- A turn of a run. -/
theorem next_turn {e : Effect LnEffect} {t : LnTurn}
    (hc : ∀ a id h, t = .await a → a.payout = some (id, h) → w.Claims env id h) :
    PaymentsNext env w i (w.turn env e t).payments ∧ RunningNext env w (w.turn env e t).running := by
  obtain ⟨a, rfl⟩ | ⟨db, hturn⟩ := turn_cases env w e t
  · refine ⟨?_, .awaits e a fun id h => hc a id h rfl⟩
    cases a with
    | payoutPay order bolt11 info => exact .paid _ _ (hc _ _ _ rfl rfl)
    | _ => exact .same
  · rw [hturn]
    exact ⟨.same, .none⟩

theorem next_transact_ln (tx : LnDb → Except Abort LnDb) :
    PaymentsNext env w i (w.transact tx).payments ∧ RunningNext env w (w.transact tx).running := by
  rw [transact_eq]
  exact ⟨.same, .same⟩

/-- **Which steps pay, and which let a run go on.** -/
theorem step_pays (hsound : Sound env w) (hs : LnWorld.step env w i = some w') :
    PaymentsNext env w i w'.payments ∧ RunningNext env w w'.running := by
  cases i with
  | start e =>
    obtain ⟨-, hfact, rfl⟩ := takesTurn_start hsound hs
    refine next_turn fun a id h ht hp => ?_
    rw [ht] at hfact
    exact claims_of_start hsound hfact ht hp
  | resume =>
    obtain ⟨e, a, ans, hr, -, hfact, rfl⟩ := takesTurn_resume hsound hs
    refine next_turn fun a' id h ht hp => ?_
    rw [ht] at hfact
    exact claims_of_resume hsound hr hfact ht hp
  | resolve index status =>
    simp only [LnWorld.step] at hs
    split at hs
    · rename_i p hp
      split at hs
      · rename_i hflight
        obtain rfl := Option.some.inj hs
        exact ⟨.resolved index p status hp hflight.1, .same⟩
      · cases hs
    · cases hs
  | payByHand hash =>
    obtain rfl := Option.some.inj hs
    exact ⟨.byHand hash rfl, .same⟩
  | request | command =>
    obtain rfl := Option.some.inj hs
    exact next_transact_ln _
  | clock height price =>
    obtain rfl := Option.some.inj hs
    rw [transact_eq]
    exact ⟨.same, .same⟩
  | otherTrack p =>
    simp only [LnWorld.step] at hs
    split at hs
    · cases hs
    · obtain rfl := Option.some.inj hs
      exact next_transact_ln _
  | accept | expire =>
    obtain ⟨n, -, rfl⟩ := Option.map_eq_some_iff.mp hs
    exact ⟨.same, .same⟩
  | tick | configSet =>
    obtain rfl := Option.some.inj hs
    exact ⟨.same, .same⟩
  | crash =>
    obtain rfl := Option.some.inj hs
    exact ⟨.same, .none⟩
  | poll hash =>
    simp only [LnWorld.step] at hs
    split at hs <;> cases hs
    exact ⟨.same, .same⟩
  | observe =>
    simp only [LnWorld.step] at hs
    split at hs
    · cases hs
    · split at hs <;> cases hs <;> exact ⟨.same, .same⟩
  | serve fault bolt11 =>
    simp only [LnWorld.step] at hs
    split at hs
    · rename_i e a hr
      split at hs
      · cases hs
      · rename_i call hcall
        obtain rfl := Option.some.inj hs
        refine ⟨.same, .answered e a _ hr fun hp => ?_⟩
        -- the node is not called for a payout
        cases a <;> first | exact absurd rfl hp | cases hcall
    · cases hs
  | answer ans =>
    simp only [LnWorld.step] at hs
    split at hs
    · rename_i e a hr
      split at hs
      · rename_i hmay
        obtain rfl := Option.some.inj hs
        exact ⟨.same, .answered e a ans hr fun _ => hmay⟩
      · cases hs
    · cases hs

/-- A payment that is made stays. -/
theorem PaymentsNext.succeeded {payments : List Payment} (h : PaymentsNext env w i payments)
    {p : Payment} (hp : p ∈ w.payments) (hs : p.status = .succeeded) : p ∈ payments := by
  cases h with
  | same => exact hp
  | resolved index q status hq hflight =>
    obtain ⟨n, hn⟩ := List.mem_iff_getElem?.mp hp
    have hne : index ≠ n := by
      rintro rfl
      obtain rfl := Option.some.inj (hq.symm.trans hn)
      cases hflight.symm.trans hs
    exact List.mem_iff_getElem?.mpr ⟨n, by rw [List.getElem?_set_ne hne]; exact hn⟩
  | byHand | paid => exact List.mem_append_left _ hp

/-- A payment that may still go out was there before, or it is the new one. -/
theorem PaymentsNext.live {payments : List Payment} (h : PaymentsNext env w i payments)
    {p : Payment} (hp : p ∈ payments) (hs : p.status ≠ .failed) :
    (∃ q ∈ w.payments, q.status ≠ .failed ∧ q.paymentHash = p.paymentHash ∧ q.orderId = p.orderId) ∨
      i = .payByHand p.paymentHash ∨ ∃ id, p.orderId = some id ∧ w.Claims env id p.paymentHash := by
  cases h with
  | same => exact .inl ⟨p, hp, hs, rfl, rfl⟩
  | resolved index q status hq hflight =>
    obtain hp | rfl := List.mem_or_eq_of_mem_set hp
    · exact .inl ⟨p, hp, hs, rfl, rfl⟩
    · exact .inl ⟨q, List.mem_of_getElem? hq, by rw [hflight]; decide, rfl, rfl⟩
  | byHand hash hi =>
    obtain hp | hp := List.mem_append.mp hp
    · exact .inl ⟨p, hp, hs, rfl, rfl⟩
    · obtain rfl := List.mem_singleton.mp hp
      exact .inr (.inl hi)
  | paid id hash hc =>
    obtain hp | hp := List.mem_append.mp hp
    · exact .inl ⟨p, hp, hs, rfl, rfl⟩
    · obtain rfl := List.mem_singleton.mp hp
      exact .inr (.inr ⟨id, rfl, hc⟩)

/-- The hash of a payout that is under way was looked to before. -/
theorem RunningNext.claims {r : LnRunning} (h : RunningNext env w (some r)) {hash : Hash}
    (hp : r.await.payout = some (id, hash)) : w.Claims env id hash := by
  generalize hx : some r = x at h
  cases h with
  | none => cases hx
  | same => exact .inr ⟨r, hx.symm, hp⟩
  | answered e a ans hr ha =>
    obtain rfl := Option.some.inj hx
    exact .inr ⟨_, hr, hp⟩
  | awaits e a hc =>
    obtain rfl := Option.some.inj hx
    exact hc _ _ hp

/-! ## What a step does to the invoices on record -/

section Invoices

variable {c : EdgeCtx} {db db' : LnDb} {o o' : LnOrderRow} {h : Hash}

/-- No transaction but that of an invoice of the sponsor puts one on record. -/
theorem OrderStep.sponsorInvoice (hs : OrderStep c db o o') (hno : ¬ c.gate o.orderId) :
    o'.sponsorInvoice = o.sponsorInvoice := by
  cases hs with
  | firstInvoice _ _ _ _ _ hg => exact absurd hg hno
  | replaceInvoice _ _ _ _ hg => exact absurd hg hno
  | _ => rfl

theorem LnEdge.billed {id' : OrderId} (he : LnEdge c id' db db') (hno : ∀ id, ¬ c.gate id)
    (hb : Billed env db' id h) : Billed env db id h := by
  obtain ⟨o', ho', hh⟩ := hb
  obtain ho | ⟨-, -, n, rfl⟩ | ⟨o, p, ho, -, -, hs, rfl⟩ | ⟨o, reason, ho, -, -, -, -, rfl⟩ :=
    he.order_cases ho'
  · exact ⟨o', ho, hh⟩
  · cases hh
  · refine ⟨o, ho, ?_⟩
    rw [← hh, LnOrderRow.billedHash, LnOrderRow.billedHash, ← hs.sponsorInvoice (hno _)]
    rfl
  · exact ⟨o, ho, hh⟩

/-- A step that takes no invoice of a sponsor puts none on record. -/
theorem billed_of_step (hsound : Sound env w) (hs : LnWorld.step env w i = some w')
    (hi : ∀ event price, i ≠ .request .sponsorInvoice event price) (hb : Billed env w'.db id h) :
    Billed env w.db id h := by
  have hno : ∀ id, ¬ (w.context env i).gate id := by
    rintro id ⟨event, price, -, h, -⟩
    exact hi event price h
  refine (step_moved hsound hs).keeps
    (P := fun db => ∀ id h, Billed env db id h → Billed env w.db id h) ?_ ?_ (fun _ _ hb => hb) id h hb
  · rintro a b hp ih id h ⟨o, ho, hh⟩
    exact ih id h ⟨o, by rw [← hp.getOrder_eq, ho], hh⟩
  · rintro a b ⟨id', he⟩ ih id h hb
    exact ih id h (he.billed hno hb)

end Invoices

namespace LnCtx

variable {ctx : LnCtx} {db db' : LnDb} {event : LnEvent} {order : LnOrderRow} {a : HandlerResult}

/-- A check either refuses the request or is met. -/
theorem ignored_ite {p : Prop} [Decidable p] {reason : String} {r : Handled}
    (h : (if p then ignored reason db else r) = .ok (a, db')) : db' = db ∨ ¬ p ∧ r = .ok (a, db') := by
  by_cases hp : p
  · rw [if_pos hp] at h
    exact .inl (Prod.mk.inj (Except.ok.inj h)).2.symm
  · rw [if_neg hp] at h
    exact .inr ⟨hp, h⟩

/-- `sponsorInvoice` changes nothing, or puts the sponsor's invoice on record, which reads. -/
theorem sponsorInvoice_cases (h : ctx.sponsorInvoice event order db = .ok (a, db')) :
    db' = db ∨ some event.pubkey = order.sponsor ∧ ∃ bolt11 info patch,
      (tagValue event.tags "bolt11").map jsTrim = some bolt11 ∧
      readBolt11 ctx.env bolt11 = some info ∧
      (∀ o : LnOrderRow, (patch o).sponsorInvoice = some bolt11) ∧
      ∀ id, getOrder id db' = getOrder id (setOrder ctx.now order.orderId patch db) := by
  have hsame : ∀ {reason : String}, ignored reason db = .ok (a, db') → db' = db := fun heq =>
    (Prod.mk.inj (Except.ok.inj heq)).2.symm
  unfold sponsorInvoice at h
  obtain hdb | ⟨hsponsor, h⟩ := ignored_ite h
  · exact .inl hdb
  obtain hdb | ⟨-, h⟩ := ignored_ite h
  · exact .inl hdb
  cases htag : ((tagValue event.tags "bolt11").map jsTrim).filter (· ≠ "") with
  | none =>
    rw [htag] at h
    exact .inl (hsame h)
  | some bolt11 =>
    rw [htag] at h
    obtain hdb | ⟨-, h⟩ := ignored_ite h
    · exact .inl hdb
    obtain hdb | ⟨-, h⟩ := ignored_ite h
    · exact .inl hdb
    obtain hdb | ⟨-, h⟩ := ignored_ite h
    · exact .inl hdb
    obtain hdb | ⟨-, h⟩ := ignored_ite h
    · exact .inl hdb
    cases hread : readBolt11 ctx.env bolt11 with
    | none =>
      rw [hread] at h
      exact .inl (hsame h)
    | some info =>
      rw [hread] at h
      obtain hdb | ⟨-, h⟩ := ignored_ite h
      · exact .inl hdb
      obtain hdb | ⟨-, h⟩ := ignored_ite h
      · exact .inl hdb
      obtain hdb | ⟨-, h⟩ := ignored_ite h
      · exact .inl hdb
      obtain hdb | ⟨-, h⟩ := ignored_ite h
      · exact .inl hdb
      -- the first invoice opens the account gate, another one takes its place
      refine .inr ⟨not_not.mp hsponsor, bolt11, info, ?_⟩
      have htag := (Option.filter_eq_some_iff.mp htag).1
      by_cases hescrowed : order.state = .escrowed
      · rw [if_pos hescrowed] at h
        obtain ⟨db₁, hup, heq⟩ := Except.map_eq_ok_iff.mp h
        obtain ⟨-, rfl⟩ := Prod.mk.inj heq
        exact ⟨_, htag, hread, fun o => rfl, fun id => by rw [eq_setOrder_of_updateOrder hup]⟩
      · rw [if_neg hescrowed] at h
        obtain ⟨db₁, hup, heq⟩ := Except.map_eq_ok_iff.mp h
        obtain ⟨-, rfl⟩ := Prod.mk.inj heq
        obtain ⟨db₂, hup, hreq⟩ := Except.bind_eq_ok_iff.mp hup
        refine ⟨fun o => { o with sponsorInvoice := some bolt11, payoutError := none }, htag, hread,
          fun o => rfl, fun id => ?_⟩
        rw [← eq_setOrder_of_updateOrder hup]
        obtain rfl := Except.ok.inj hreq
        split
        · rw [getOrder, getOrder, requestPayout, Db.enqueue_track]
        · rfl

end LnCtx

/-! ## Orders that look to hashes of their own -/

/-- A step that gives no order the hash of another one: an invoice of the sponsor has a hash that no
other order looks to and that nothing has been paid to for another order, and the operator pays by
hand no hash that an order looks to. -/
structure OwnInvoice (env : LnEnv) (w : LnWorld) (i : LnInput) : Prop where
  invoice : ∀ event price id o bolt11 info, i = .request .sponsorInvoice event price →
    extractOrderId event.tags = some id → getOrder id w.db = some o →
    some event.pubkey = o.sponsor → (tagValue event.tags "bolt11").map jsTrim = some bolt11 →
    readBolt11 env bolt11 = some info →
    (∀ id', w.Claims env id' info.paymentHash → id' = id) ∧
      ∀ p ∈ w.payments, p.status ≠ .failed → p.paymentHash = info.paymentHash → p.orderId = some id
  byHand : ∀ h, i = .payByHand h → ∀ id, ¬ w.Claims env id h

/-- No two orders look to one hash, what is paid to it is paid for its order, and the node says that a
hash is paid only when it is. -/
structure LnWorld.Separate (env : LnEnv) (w : LnWorld) : Prop where
  distinct : ∀ id id' h, w.Claims env id h → w.Claims env id' h → id = id'
  own : ∀ p ∈ w.payments, p.status ≠ .failed → ∀ id, w.Claims env id p.paymentHash →
    p.orderId = some id
  answered : ∀ e a ans id h, w.running = some ⟨e, a, some ans⟩ → a.payout = some (id, h) →
    ans.succeeded → ∃ p ∈ w.payments, p.paymentHash = h ∧ p.status = .succeeded

/-- What the node may say of a payout. -/
theorem succeeded_of_mayAnswer {payments : List Payment} {a : LnAwait} {ans : LnAnswer} {h : Hash}
    (hmay : LnWorld.mayAnswer payments a ans) (hp : a.payout = some (id, h)) (hs : ans.succeeded) :
    ∃ p ∈ payments, p.paymentHash = h ∧ p.status = .succeeded := by
  cases a with
  | payoutTrack order bolt11 info =>
    obtain ⟨-, rfl⟩ := Prod.mk.inj (Option.some.inj hp)
    cases ans with
    | tracked status =>
      obtain rfl : status = some .succeeded := hs
      exact hmay
    | _ => cases hs <;> cases hmay
  | payoutPay order bolt11 info =>
    obtain ⟨-, rfl⟩ := Prod.mk.inj (Option.some.inj hp)
    cases ans with
    | paid status reason =>
      obtain rfl : status = .succeeded := hs
      exact hmay
    | _ => cases hs <;> cases hmay
  | _ => cases hp

/-- What an order looks to after a step it looked to before, or it is the sponsor's invoice that the
step has taken. -/
theorem claims_of_step (hsound : Sound env w) (hs : LnWorld.step env w i = some w') {h : Hash}
    (hc : w'.Claims env id h) : w.Claims env id h ∨
      ∃ event price o bolt11 info, i = .request .sponsorInvoice event price ∧
        extractOrderId event.tags = some id ∧ getOrder id w.db = some o ∧
        some event.pubkey = o.sponsor ∧ (tagValue event.tags "bolt11").map jsTrim = some bolt11 ∧
        readBolt11 env bolt11 = some info ∧ info.paymentHash = h := by
  obtain hb | ⟨r, hr, hp⟩ := hc
  · by_cases hi : ∃ event price, i = .request .sponsorInvoice event price
    · obtain ⟨event, price, rfl⟩ := hi
      obtain rfl := Option.some.inj hs
      unfold LnWorld.transact at hb
      split at hb
      · rename_i db hdb
        obtain ⟨⟨a, db₁⟩, hhandle, rfl⟩ := Except.map_eq_ok_iff.mp hdb
        have hhandle : LnCtx.withOrder (LnCtx.sponsorInvoice ⟨env, w.now, price⟩) event w.db =
            .ok (a, db₁) := hhandle
        have hb : Billed env db₁ id h := hb
        unfold LnCtx.withOrder at hhandle
        split at hhandle
        · obtain ⟨-, rfl⟩ := Prod.mk.inj (Except.ok.inj hhandle)
          exact .inl (.inl hb)
        · rename_i id' hid'
          split at hhandle
          · obtain ⟨-, rfl⟩ := Prod.mk.inj (Except.ok.inj hhandle)
            exact .inl (.inl hb)
          · rename_i o ho
            obtain rfl | ⟨hsponsor, bolt11, info, patch, htag, hread, hpatch, hdb₁⟩ :=
              LnCtx.sponsorInvoice_cases hhandle
            · exact .inl (.inl hb)
            · obtain ⟨o', ho', hh⟩ := hb
              rw [hdb₁, getOrder_setOrder, getOrder_orderId ho] at ho'
              by_cases hid : id = id'
              · subst hid
                rw [if_pos rfl, ho] at ho'
                obtain rfl := Option.some.inj ho'
                have hbilled : (o.stamp patch w.now).sponsorInvoice = some bolt11 := hpatch o
                rw [LnOrderRow.billedHash, hbilled, Option.bind_some, hread] at hh
                exact .inr ⟨event, price, o, bolt11, info, rfl,
                  (Option.filter_eq_some_iff.mp hid').1, ho, hsponsor, htag, hread,
                  Option.some.inj hh⟩
              · rw [if_neg hid] at ho'
                exact .inl (.inl ⟨o', ho', hh⟩)
      · exact .inl (.inl hb)
    · exact .inl (.inl (billed_of_step hsound hs (fun event price h => hi ⟨event, price, h⟩) hb))
  · have hnext := (step_pays hsound hs).2
    rw [hr] at hnext
    exact .inl (hnext.claims hp)

/-- **A step that gives no order the hash of another one keeps them apart.** -/
theorem LnWorld.Separate.step (hsep : w.Separate env) (hsound : Sound env w) (hi : OwnInvoice env w i)
    (hs : LnWorld.step env w i = some w') : w'.Separate env := by
  obtain ⟨hpay, hrun⟩ := step_pays hsound hs
  refine ⟨fun id id' h hc hc' => ?_, fun p hp hlive id hc => ?_, fun e a ans id h hr hp hsucc => ?_⟩
  · obtain hc | ⟨event, price, o, bolt11, info, rfl, hid, ho, hsponsor, htag, hread, rfl⟩ :=
      claims_of_step hsound hs hc
    · obtain hc' | ⟨event, price, o, bolt11, info, rfl, hid, ho, hsponsor, htag, hread, rfl⟩ :=
        claims_of_step hsound hs hc'
      · exact hsep.distinct id id' h hc hc'
      · exact (hi.invoice _ _ _ _ _ _ rfl hid ho hsponsor htag hread).1 id hc
    · obtain hc' | ⟨event', price', o', bolt11', info', heq, hid', -⟩ := claims_of_step hsound hs hc'
      · exact ((hi.invoice _ _ _ _ _ _ rfl hid ho hsponsor htag hread).1 id' hc').symm
      · obtain ⟨-, rfl, -⟩ := LnInput.request.inj heq
        exact Option.some.inj (hid.symm.trans hid')
  · obtain hc | ⟨event, price, o, bolt11, info, rfl, hid, ho, hsponsor, htag, hread, hhash⟩ :=
      claims_of_step hsound hs hc
    · obtain ⟨q, hq, hqlive, hqhash, hqid⟩ | hhand | ⟨id', hid', hc'⟩ := hpay.live hp hlive
      · rw [← hqid]
        exact hsep.own q hq hqlive id (by rw [hqhash]; exact hc)
      · exact absurd hc (hi.byHand _ hhand id)
      · rw [hid', hsep.distinct id id' _ hc hc']
    · -- an invoice is taken, and no payment is begun in this step
      obtain ⟨q, hq, hqlive, hqhash, hqid⟩ | hhand | ⟨id', hid', hc'⟩ := hpay.live hp hlive
      · rw [← hqid]
        exact (hi.invoice _ _ _ _ _ _ rfl hid ho hsponsor htag hread).2 q hq hqlive
          (hqhash.trans hhash.symm)
      · cases hhand
      · rw [hid', (hi.invoice _ _ _ _ _ _ rfl hid ho hsponsor htag hread).1 id' (hhash ▸ hc')]
  · rw [hr] at hrun
    have hbefore : ∃ p ∈ w.payments, p.paymentHash = h ∧ p.status = .succeeded := by
      generalize hx : some (⟨e, a, some ans⟩ : LnRunning) = x at hrun
      cases hrun with
      | none => cases hx
      | same => exact hsep.answered e a ans id h hx.symm hp hsucc
      | answered e' a' ans' hr' ha' =>
        obtain ⟨-, rfl, heq⟩ := LnRunning.mk.inj (Option.some.inj hx)
        obtain rfl := Option.some.inj heq
        exact succeeded_of_mayAnswer (ha' (by rw [hp]; simp)) hp hsucc
      | awaits e' a' hc' =>
        obtain ⟨-, -, heq⟩ := LnRunning.mk.inj (Option.some.inj hx)
        cases heq
    obtain ⟨p, hp, hhash, hps⟩ := hbefore
    exact ⟨p, hpay.succeeded hp hps, hhash, hps⟩

theorem separate_initial (env : LnEnv) (now : ℤ) : (LnWorld.initial now).Separate env where
  distinct := by
    rintro id id' h (⟨o, ho, -⟩ | ⟨r, hr, -⟩)
    · cases ho
    · cases hr
  own := by
    intro p hp
    cases hp
  answered := by
    intro e a ans id h hr
    cases hr

/-! ## Disbursed -/

/-- The payout of the order ends in this step with the money gone out, and `onDone` marks the
order. -/
inductive EndsPaid (env : LnEnv) (w : LnWorld) (id : OrderId) : LnInput → Prop
  | resume {a : LnAwait} {ans : LnAnswer} (hr : w.running = some ⟨.own (.payout id), a, some ans⟩)
      (hd : LnCtx.resumeRun ⟨env, w.now, none⟩ a ans w.db = .done (.payout .paid)) :
      EndsPaid env w id .resume

/-- In a run whose steps meet `ok`, the executor has marked the order. -/
inductive Disbursed (env : LnEnv) (ok : LnWorld → LnInput → Prop) (id : OrderId) : LnWorld → Prop
  | marks {w w' : LnWorld} {i : LnInput} (hw : (lnSystem env).ReachableBy ok w) (hi : ok w i)
      (hs : LnWorld.step env w i = some w') (hend : EndsPaid env w id i) : Disbursed env ok id w'
  | stays {w w' : LnWorld} {i : LnInput} (hd : Disbursed env ok id w) (hi : ok w i)
      (hs : LnWorld.step env w i = some w') : Disbursed env ok id w'

/-- A payout that ends with the money gone out has been told so. -/
theorem EndsPaid.told (h : EndsPaid env w id i) (hsound : Sound env w) :
    ∃ a ans hash, w.running = some ⟨.own (.payout id), a, some ans⟩ ∧
      a.payout = some (id, hash) ∧ ans.succeeded := by
  cases h with
  | @resume a ans hr hd =>
    have hfact := (hsound.running _ _ _ hr).1
    refine ⟨a, ans, ?_⟩
    cases a with
    | payoutTrack order bolt11 info =>
      obtain ⟨he, -⟩ := hfact
      obtain rfl : id = order.orderId := by
        injection he with he
        injection he
      refine ⟨info.paymentHash, hr, rfl, ?_⟩
      cases ans with
      | tracked status =>
        have hd : LnCtx.payoutTracked ⟨env, w.now, none⟩ order bolt11 info w.db status =
          .done (.payout .paid) := hd
        unfold LnCtx.payoutTracked at hd
        split at hd
        · rfl
        · cases hd
        · split at hd
          · cases hd
          · split at hd <;> cases hd
      | _ => cases hd
    | payoutPay order bolt11 info =>
      obtain ⟨he, -⟩ := hfact
      obtain rfl : id = order.orderId := by
        injection he with he
        injection he
      refine ⟨info.paymentHash, hr, rfl, ?_⟩
      cases ans with
      | paid status reason =>
        cases status with
        | succeeded => rfl
        | inFlight => cases hd
        | failed => cases reason <;> cases hd
      | _ => cases hd
    | hold a => cases a <;> first | cases hfact.1 | (obtain ⟨_, h, -⟩ := hfact; cases h)
    | closeLookup =>
      obtain ⟨_, _, h, -⟩ := hfact
      cases h
    | closeCall =>
      obtain ⟨_, _, _, h, -⟩ := hfact
      cases h
    | _ => cases hfact.1

/-- The hash that a payout was told of has been paid for its order. -/
theorem LnWorld.Separate.paid (hsep : w.Separate env) (hsound : Sound env w)
    (h : EndsPaid env w id i) : ∃ p ∈ w.payments, p.orderId = some id ∧ p.status = .succeeded := by
  obtain ⟨a, ans, hash, hr, hp, hsucc⟩ := h.told hsound
  obtain ⟨p, hpay, rfl, hs⟩ := hsep.answered _ _ _ _ _ hr hp hsucc
  exact ⟨p, hpay, hsep.own p hpay (by rw [hs]; decide) id (.inr ⟨_, hr, hp⟩), hs⟩

/-- In every run that keeps the hashes of the orders apart they are apart. -/
theorem separate_of_reachable (hw : (lnSystem env).ReachableBy (OwnInvoice env) w) :
    w.Separate env := by
  refine TransitionSystem.invariant_by (P := LnWorld.Separate env) ?_ ?_ hw
  · rintro _ ⟨now, rfl⟩
    exact separate_initial env now
  · intro a i b ha hsep hi hs
    exact hsep.step (sound_of_reachable ha.reachable) hi hs

theorem Disbursed.reachable {ok : LnWorld → LnInput → Prop} (h : Disbursed env ok id w) :
    (lnSystem env).ReachableBy ok w := by
  induction h with
  | marks hw hi hs => exact .step hw hi hs
  | stays _ hi hs ih => exact .step ih hi hs

/-- What the executor has marked has been paid for. -/
theorem Disbursed.paid (h : Disbursed env (OwnInvoice env) id w) :
    ∃ p ∈ w.payments, p.orderId = some id ∧ p.status = .succeeded := by
  induction h with
  | marks hw hi hs hend =>
    have hsound := sound_of_reachable hw.reachable
    obtain ⟨p, hp, hid, hps⟩ := (separate_of_reachable hw).paid hsound hend
    exact ⟨p, (step_pays hsound hs).1.succeeded hp hps, hid, hps⟩
  | stays hd hi hs ih =>
    obtain ⟨p, hp, hid, hps⟩ := ih
    exact ⟨p, (step_pays (sound_of_reachable hd.reachable.reachable) hs).1.succeeded hp hps, hid, hps⟩

/-- **Disbursed means paid, order by order, as long as every order has invoices of its own.**  In every
run that gives no order the hash of another one, the orders the executor has marked are mapped one to
one to payments that were made for them and have succeeded. -/
theorem disbursed_means_paid (env : LnEnv) (w : LnWorld) :
    ∃ paidBy : OrderId → ℕ, Set.InjOn paidBy {id | Disbursed env (OwnInvoice env) id w} ∧
      ∀ id, Disbursed env (OwnInvoice env) id w →
        ∃ p, w.payments[paidBy id]? = some p ∧ p.orderId = some id ∧ p.status = .succeeded := by
  have hpaid : ∀ id, ∃ n : ℕ, Disbursed env (OwnInvoice env) id w →
      ∃ p, w.payments[n]? = some p ∧ p.orderId = some id ∧ p.status = .succeeded := by
    intro id
    by_cases hd : Disbursed env (OwnInvoice env) id w
    · obtain ⟨p, hp, hid, hs⟩ := hd.paid
      obtain ⟨n, hn⟩ := List.mem_iff_getElem?.mp hp
      exact ⟨n, fun _ => ⟨p, hn, hid, hs⟩⟩
    · exact ⟨0, fun h => absurd h hd⟩
  choose paidBy hpaidBy using hpaid
  refine ⟨paidBy, fun id hid id' hid' heq => ?_, fun id hid => hpaidBy id hid⟩
  obtain ⟨p, hp, hp₁, -⟩ := hpaidBy id hid
  obtain ⟨q, hq, hq₁, -⟩ := hpaidBy id' hid'
  rw [heq] at hp
  obtain rfl := Option.some.inj (hp.symm.trans hq)
  exact Option.some.inj (hp₁.symm.trans hq₁)

/-! ### One payment and two orders -/

theorem Disbursed.run {ok : LnWorld → LnInput → Prop} {is : List LnInput} (h : Disbursed env ok id w)
    (hok : ∀ i ∈ is, ∀ w, ok w i) (hrun : (lnSystem env).run w is = some w') :
    Disbursed env ok id w' := by
  induction is generalizing w with
  | nil => exact Option.some.inj hrun ▸ h
  | cons i is ih =>
    rw [TransitionSystem.run, Option.bind_eq_some_iff] at hrun
    obtain ⟨w₁, hs, hrun⟩ := hrun
    exact ih (.stays h (hok i List.mem_cons_self w) hs) (fun j hj => hok j (List.mem_cons_of_mem i hj))
      hrun

/-- The payout that is suspended is of this order, and it has been told that the money has gone out. -/
def LnWorld.paysOut (env : LnEnv) (w : LnWorld) (id : OrderId) : Bool :=
  match w.running with
  | some ⟨.own (.payout id'), a, some ans⟩ =>
    decide (id' = id) && match LnCtx.resumeRun ⟨env, w.now, none⟩ a ans w.db with
      | .done (.payout .paid) => true
      | _ => false
  | _ => false

theorem endsPaid_of_paysOut (h : w.paysOut env id = true) : EndsPaid env w id .resume := by
  unfold LnWorld.paysOut at h
  split at h
  · rename_i id' a ans hr
    obtain ⟨hid, hd⟩ := (Bool.and_eq_true _ _).mp h
    obtain rfl := of_decide_eq_true hid
    split at hd
    · rename_i hdone
      exact .resume hr hdone
    · cases hd
  · cases h

/-- The invoice of the sponsor of the sample trade. -/
def sampleInvoice : LnInput :=
  .request .sponsorInvoice (sampleEvent 'b' samplePubkey_b [["bolt11", "lnbc-sponsor"]]) none

/-- The sample trade up to the invoice. -/
def sampleEscrowed : List LnInput :=
  sampleOpening ++ [.accept sampleEscrow 1000, .poll sampleEscrow, .observe]

/-- The sample trade from the invoice on, up to the answer to the payment. -/
def samplePaying : List LnInput :=
  [.request .remitRequest (sampleEvent 'b' samplePubkey_b []) none,
    .request .paymentConfirm (sampleEvent 'a' samplePubkey_a []) none,
    .start (.own (.close "ord1")), .serve .none "", .resume, .serve .none "", .resume,
    .start (.own (.payout "ord1")), .answer (.tracked none), .resume, .resolve 0 .succeeded,
    .answer (.paid .succeeded none)]

/-- An event about the order `ord2`. -/
def otherEvent (c : Char) (h : isHex64 (samplePubkey c) = true) (tags : List (List String)) :
    LnEvent :=
  ⟨"event", samplePubkey c, h, 0, ["a", "38383:daemon:ord2"] :: tags, .badPayload⟩

theorem samplePubkey_c : isHex64 (samplePubkey 'c') = true := by decide

theorem samplePubkey_d : isHex64 (samplePubkey 'd') = true := by decide

/-- The escrow of the order `ord2`. -/
def otherEscrow : Hash := "lnpay/preimage/v1/ln-escrow/ord2/0"

/-- Another trade over the same amount, whose sponsor hands in the invoice of the first one. -/
def otherTrade : List LnInput :=
  [.request .orderRequest
      (otherEvent 'c' samplePubkey_c [["price", "10000"], ["deadline", "100000"]]) none,
    .request .claim (otherEvent 'd' samplePubkey_d []) none,
    .clock none (some (10 ^ 8)),
    .start (.holdCreate otherEscrow), .serve .none "", .resume,
    .serve .none "lnbc-other", .resume,
    .accept otherEscrow 1000, .poll otherEscrow, .observe,
    .request .sponsorInvoice (otherEvent 'd' samplePubkey_d [["bolt11", "lnbc-sponsor"]]) none,
    .request .remitRequest (otherEvent 'd' samplePubkey_d []) none,
    .request .paymentConfirm (otherEvent 'c' samplePubkey_c []) none,
    .start (.own (.close "ord2")), .serve .none "", .resume, .serve .none "", .resume,
    .start (.own (.payout "ord2")), .answer (.tracked (some .succeeded))]

/-- Two orders are marked on account of one payment, and nothing is paid for the second one. -/
theorem two_disbursed_by_one_payment : ∃ w,
    Disbursed sampleEnv (fun _ _ => True) "ord1" w ∧ Disbursed sampleEnv (fun _ _ => True) "ord2" w ∧
    w.payments = [⟨some "ord1", "sponsor", .succeeded⟩] ∧
    ¬ ∃ paidBy : OrderId → ℕ,
      Set.InjOn paidBy {id | Disbursed sampleEnv (fun _ _ => True) id w} ∧
      ∀ id, Disbursed sampleEnv (fun _ _ => True) id w →
        ∃ p, w.payments[paidBy id]? = some p ∧ p.orderId = some id ∧ p.status = .succeeded := by
  have hrun : (sampleRun (sampleEscrowed ++ sampleInvoice :: samplePaying)).any (fun w₁ =>
      w₁.paysOut sampleEnv "ord1" &&
      (w₁.step sampleEnv .resume).any fun w₂ => ((lnSystem sampleEnv).run w₂ otherTrade).any fun w₃ =>
        w₃.paysOut sampleEnv "ord2" &&
        (w₃.step sampleEnv .resume).any fun w =>
          w.payments = [⟨some "ord1", "sponsor", .succeeded⟩]) = true := by
    decide +kernel
  simp only [Option.any_eq_true, Bool.and_eq_true, decide_eq_true_eq] at hrun
  obtain ⟨w₁, hw₁, hfirst, w₂, hw₂, w₃, hw₃, hsecond, w, hw, hpayments⟩ := hrun
  have hreach : (lnSystem sampleEnv).Reachable w₁ := reachable_of_sampleRun hw₁
  have hmarked : Disbursed sampleEnv (fun _ _ => True) "ord1" w₃ :=
    Disbursed.run (.marks hreach trivial hw₂ (endsPaid_of_paysOut hfirst)) (fun _ _ _ => trivial) hw₃
  have hother : Disbursed sampleEnv (fun _ _ => True) "ord2" w :=
    .marks hmarked.reachable trivial hw (endsPaid_of_paysOut hsecond)
  refine ⟨w, .stays hmarked trivial hw, hother, hpayments, ?_⟩
  rintro ⟨paidBy, -, hpaid⟩
  obtain ⟨p, hp, hid, -⟩ := hpaid "ord2" hother
  have hmem := List.mem_of_getElem? hp
  rw [hpayments] at hmem
  obtain rfl := List.mem_singleton.mp hmem
  exact absurd hid (by decide)

/-! ### One payment and one order -/

/-- Only an invoice of a sponsor and a payment by hand can give an order the hash of another one. -/
theorem ownInvoice_of_ne (hi : ∀ event price, i ≠ .request .sponsorInvoice event price)
    (hh : ∀ h, i ≠ .payByHand h) : OwnInvoice env w i :=
  ⟨fun _ _ _ _ _ _ h => absurd h (hi _ _), fun _ h => absurd h (hh _)⟩

/-- The first invoice of all is that of no other order. -/
theorem ownInvoice_first (hrun : w.running = none) (hpay : w.payments = [])
    (hnone : ∀ o ∈ w.db.track.orders.rows, o.sponsorInvoice = none) (hh : ∀ h, i ≠ .payByHand h) :
    OwnInvoice env w i := by
  refine ⟨fun event price id o bolt11 info _ _ _ _ _ _ => ⟨fun id' hc => ?_, fun p hp => ?_⟩,
    fun h hi => absurd hi (hh h)⟩
  · obtain ⟨o', ho', hb⟩ | ⟨r, hr, -⟩ := hc
    · rw [LnOrderRow.billedHash, hnone o' (KeyedTable.mem_of_find ho')] at hb
      cases hb
    · cases hrun.symm.trans hr
  · rw [hpay] at hp
    cases hp

/-- The sample trade is marked, and it has been paid for. -/
theorem disbursed_means_paid_sample : ∃ (w : LnWorld) (paidBy : OrderId → ℕ),
    Disbursed sampleEnv (OwnInvoice sampleEnv) "ord1" w ∧
    ∃ p, w.payments[paidBy "ord1"]? = some p ∧ p.orderId = some "ord1" ∧ p.status = .succeeded := by
  have hrun : (sampleRun sampleEscrowed).any (fun w₀ =>
      w₀.running.isNone && w₀.payments = [] &&
      (w₀.db.track.orders.rows.all fun o => o.sponsorInvoice = none) &&
      (w₀.step sampleEnv sampleInvoice).any fun w₁ =>
        ((lnSystem sampleEnv).run w₁ samplePaying).any fun w₂ =>
          w₂.paysOut sampleEnv "ord1" && (w₂.step sampleEnv .resume).isSome) = true := by
    decide +kernel
  simp only [Option.any_eq_true, Bool.and_eq_true, decide_eq_true_eq, Option.isNone_iff_eq_none,
    List.all_eq_true] at hrun
  obtain ⟨w₀, hw₀, ⟨⟨hidle, hpay⟩, hnone⟩, w₁, hw₁, w₂, hw₂, hends, hsome⟩ := hrun
  obtain ⟨w, hw⟩ := Option.isSome_iff_exists.mp hsome
  have hplain : ∀ i ∈ sampleEscrowed ++ samplePaying ++ [.resume], ∀ w,
      OwnInvoice sampleEnv w i := by
    intro i hi w
    refine ownInvoice_of_ne ?_ ?_
    · rintro event price rfl
      simp [sampleEscrowed, sampleOpening, samplePaying] at hi
    · rintro h rfl
      simp [sampleEscrowed, sampleOpening, samplePaying] at hi
  have hfirst : OwnInvoice sampleEnv w₀ sampleInvoice :=
    ownInvoice_first hidle hpay hnone (fun h heq => by cases heq)
  have hreach₀ : (lnSystem sampleEnv).ReachableBy (OwnInvoice sampleEnv) w₀ :=
    TransitionSystem.ReachableBy.run (.init ⟨0, rfl⟩)
      (fun i hi => hplain i (List.mem_append_left _ (List.mem_append_left _ hi))) hw₀
  have hreach : (lnSystem sampleEnv).ReachableBy (OwnInvoice sampleEnv) w₂ :=
    TransitionSystem.ReachableBy.run (.step hreach₀ hfirst hw₁)
      (fun i hi => hplain i (List.mem_append_left _ (List.mem_append_right _ hi))) hw₂
  have hmarked : Disbursed sampleEnv (OwnInvoice sampleEnv) "ord1" w :=
    .marks hreach (hplain _ (List.mem_append_right _ List.mem_cons_self) w₂) hw
      (endsPaid_of_paysOut hends)
  obtain ⟨paidBy, -, hpaid⟩ := disbursed_means_paid sampleEnv w
  exact ⟨w, paidBy, hmarked, hpaid "ord1" hmarked⟩

end LnPay
