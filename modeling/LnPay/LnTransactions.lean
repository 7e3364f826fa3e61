/-
# Every Lightning transaction is a sequence of edges

* `handle_leads` and `command_leads`: requests and operator commands,
* `clockDraft_leads`, …, `clockSafety_leads`: the bodies of the clock's five loops,
  and `loop_leads`, the rule for such a loop,
* `createDone_leads`, `disposeDone_leads`, `observe_leads`, `finishClose_leads`,
  `abandonClose_leads`, `payoutDone_leads`, …: what the effects and the hold poll
  record.

The frame lemmas at the beginning say what an edge leaves alone.
-/
import LnPay.LnEdges

namespace LnPay

/-- One step of a transaction, about some order. -/
def LnMove (c : EdgeCtx) (db db' : LnDb) : Prop := ∃ id, LnEdge c id db db'

variable {c : EdgeCtx} {id id' : OrderId} {db db' : LnDb} {price : Option ℚ}

theorem Leads.move (id : OrderId) {r : Except Abort LnDb} (h : Leads (LnEdge c id) db r) :
    Leads (LnMove c) db r :=
  h.mono fun _ _ h => ⟨id, h⟩

/-- One step of a transaction, about the order an event names. -/
def LnAbout (c : EdgeCtx) (event : LnEvent) (db db' : LnDb) : Prop :=
  ∃ id, extractOrderId event.tags = some id ∧ LnEdge c id db db'

theorem Leads.about {event : LnEvent} {p : OrderId → Bool} {r : Except Abort LnDb}
    (hid : (extractOrderId event.tags).filter p = some id) (h : Leads (LnEdge c id) db r) :
    Leads (LnAbout c event) db r :=
  h.mono fun _ _ h => ⟨id, (Option.filter_eq_some_iff.mp hid).1, h⟩

/-! ## Frames -/

theorem getOrder_setOrder (now : ℤ) (id id' : OrderId) (patch : LnOrderRow → LnOrderRow)
    (db : LnDb) : getOrder id' (setOrder now id patch db) =
      if id' = id then (getOrder id' db).map (LnOrderRow.stamp patch now) else getOrder id' db :=
  KeyedTable.find_update db.track.orders id (LnOrderRow.stamp patch now) (fun _ => rfl) id'

theorem eq_setOrder_of_updateOrder {patch : LnOrderRow → LnOrderRow} {now : ℤ}
    (h : updateOrder now id patch db = .ok db') : db' = setOrder now id patch db := by
  unfold updateOrder at h
  split at h
  · cases h
  · exact (Except.ok.inj h).symm

/-- The order after `updateOrder`. -/
theorem getOrder_updateOrder {o : LnOrderRow} {patch : LnOrderRow → LnOrderRow} {now : ℤ}
    (ho : getOrder id db = some o) (h : updateOrder now id patch db = .ok db') :
    getOrder id db' = some (o.stamp patch now) := by
  rw [eq_setOrder_of_updateOrder h, getOrder_setOrder, if_pos rfl, ho]
  rfl

/-- An edge leaves the orders alone that it is not about. -/
theorem LnEdge.getOrder_of_ne (h : LnEdge c id db db') (hne : id' ≠ id) :
    getOrder id' db' = getOrder id' db := by
  cases h with
  | insertOrder o orders hid _ hins =>
    exact (KeyedTable.find_insert hins id').trans
      (if_neg fun he => hne (he.symm.trans hid))
  | insertDraft => rfl
  | deleteDraft => rfl
  | plan => rw [getOrder, getOrder, Db.enqueue_track]
  | planOther => rw [getOrder, getOrder, Db.enqueue_track]
  | dispose => rw [getOrder, getOrder, dispose_track]
  | requestPayout => rw [getOrder, getOrder, LnCtx.requestPayout, Db.enqueue_track]
  | setHold h =>
    obtain ⟨_, _, -, -, -, -, rfl⟩ := h
    rfl
  | updateOrder => rw [getOrder_setOrder, if_neg hne]
  | beginClose =>
    rw [getOrder, Db.enqueue_track]
    exact (getOrder_setOrder ..).trans (if_neg hne)

/-- An edge leaves the drafts alone that it is not about. -/
theorem LnEdge.getDraft_of_ne (h : LnEdge c id db db') (hne : id' ≠ id) :
    getDraft id' db' = getDraft id' db := by
  cases h with
  | insertOrder => rfl
  | insertDraft d drafts hid _ hins =>
    exact (KeyedTable.find_insert hins id').trans
      (if_neg fun he => hne (he.symm.trans hid))
  | deleteDraft => exact KeyedTable.find_erase_of_ne _ hne
  | plan => rw [getDraft, getDraft, Db.enqueue_track]
  | planOther => rw [getDraft, getDraft, Db.enqueue_track]
  | dispose => rw [getDraft, getDraft, dispose_track]
  | requestPayout => rw [getDraft, getDraft, LnCtx.requestPayout, Db.enqueue_track]
  | setHold h =>
    obtain ⟨_, _, -, -, -, -, rfl⟩ := h
    rfl
  | updateOrder => rfl
  | beginClose =>
    rw [getDraft, getDraft, Db.enqueue_track]
    rfl

/-! ## Requests -/

section Requests

@[simp] theorem accepted_map_snd (r : Except Abort LnDb) :
    (LnCtx.accepted r).map Prod.snd = r := by
  cases r <;> rfl

@[simp] theorem ignored_map_snd (reason : String) (db : LnDb) :
    (LnCtx.ignored reason db).map Prod.snd = .ok db := rfl

@[simp] theorem closeAnswer_map_snd (r : Except Abort (Bool × LnDb)) :
    (LnCtx.closeAnswer r).map Prod.snd = r.map Prod.snd := by
  cases r <;> rfl

theorem orderTermsBlocker_eq_none {ctx : LnCtx} {p d : Option ℤ}
    (h : ctx.orderTermsBlocker id p d db = none) :
    getOrder id db = none ∧ getDraft id db = none := by
  unfold LnCtx.orderTermsBlocker at h
  split at h
  · cases h
  · split at h
    · cases h
    · split at h
      · cases h
      · split at h
        · cases h
        · split at h
          · cases h
          · split at h
            · cases h
            · rename_i hfree
              simpa using hfree

theorem orderRequest_leads {event : LnEvent} (hu : ∀ h, c.drops h) :
    Leads (LnAbout c event) db (((c.ctx price).orderRequest event db).map Prod.snd) := by
  unfold LnCtx.orderRequest
  split
  · exact .refl
  · rename_i orderId hid
    dsimp only
    split
    · exact .refl
    · rename_i hfree
      obtain ⟨ho, hd⟩ := orderTermsBlocker_eq_none hfree
      split
      · rw [accepted_map_snd]
        exact Leads.about hid (insertOrder_leads rfl hd)
      · rw [accepted_map_snd]
        refine Leads.about hid ?_
        unfold insertDraft
        split
        · exact .error
        · rename_i drafts hins
          refine .head (.insertDraft _ drafts rfl ho hins) ?_
          refine planCustomerDeposit_leads rfl ?_ fun _ _ _ _ => hu _
          exact (KeyedTable.find_insert hins orderId).trans (if_pos rfl)

theorem designatedOrderRequest_leads {event : LnEvent} :
    Leads (LnAbout c event) db (((c.ctx price).designatedOrderRequest event db).map Prod.snd) := by
  unfold LnCtx.designatedOrderRequest
  split
  · exact .refl
  · rename_i orderId hid
    split
    · exact .refl
    · exact .refl
    · split
      · exact .refl
      · split
        · exact .refl
        · rename_i hfree
          split
          · exact .refl
          · rw [accepted_map_snd]
            exact Leads.about hid (insertOrder_leads rfl (orderTermsBlocker_eq_none hfree).2)

theorem claim_leads {event : LnEvent} {order : LnOrderRow} (hc : c.claims)
    (ho : getOrder id db = some order) (hm : c.moves .requested .claimed) :
    Leads (LnEdge c id) db (((c.ctx price).claim event order db).map Prod.snd) := by
  obtain rfl := getOrder_orderId ho
  unfold LnCtx.claim
  split
  · exact .refl
  · rename_i hp
    split
    · exact .refl
    · rename_i hs
      split
      · exact .refl
      · split
        · exact .refl
        · split
          · exact .refl
          · have hs : order.state = .requested := by
              revert hs
              cases order.state <;> decide
            have hp : order.pendingClose = none := by simpa using hp
            rw [accepted_map_snd]
            refine .bind (updateOrder_leads ho (.claim event.pubkey hs hp hc hm)) fun db₁ hdb₁ => ?_
            split
            · refine planSponsorDeposit_leads rfl ?_
              exact ⟨_, getOrder_updateOrder ho hdb₁, rfl, hp, rfl⟩
            · exact .refl

theorem sponsorInvoice_leads {event : LnEvent} {order : LnOrderRow}
    (ho : getOrder id db = some order) (hm : c.moves .escrowed .invoiced)
    (hg : ((order.state = .escrowed ∨ order.state = .invoiced) →
      LnCtx.escrowEndingSoon order db = false) → c.gate id) :
    Leads (LnEdge c id) db (((c.ctx price).sponsorInvoice event order db).map Prod.snd) := by
  obtain rfl := getOrder_orderId ho
  unfold LnCtx.sponsorInvoice
  refine .mapIte (fun _ => .refl) fun _ => .mapIte (fun _ => .refl) fun hp => ?_
  split
  · exact .refl
  · rename_i bolt11 hb
    refine .mapIte (fun _ => .refl) fun hstate => .mapIte (fun _ => .refl) fun hprogress => ?_
    refine .mapIte (fun _ => .refl) fun _ => .mapIte (fun _ => .refl) fun _ => ?_
    split
    · exact .refl
    · rename_i info hread
      refine .mapIte (fun _ => .refl) fun _ => .mapIte (fun _ => .refl) fun hexact => ?_
      refine .mapIte (fun _ => .refl) fun _ => .mapIte (fun _ => .refl) fun hending => ?_
      have hg : c.gate order.orderId := hg fun hs => by simpa [hs] using hending
      -- the invoice is taken: the account gate opens, or an invoice is replaced
      have hp : order.pendingClose = none := by simpa using hp
      have hx : order.Exact c.env bolt11 := by
        obtain ⟨h₁, h₂⟩ := isPayoutAmountExact_iff.mp (not_not.mp hexact)
        exact ⟨by simpa using (Option.filter_eq_some_iff.mp hb).2, info, hread, h₁, h₂⟩
      refine .mapIte (fun hesc => ?_) fun hesc => ?_
      · rw [accepted_map_snd]
        exact updateOrder_leads ho (.firstInvoice bolt11 hesc hp hx hm hg)
      · rw [accepted_map_snd]
        refine .bind (updateOrder_leads ho (.replaceInvoice bolt11 ?_ hp hx hg)) fun _ _ => ?_
        · simp only [LnCtx.payoutPending, LnOrderRow.payable] at hstate hprogress ⊢
          simp at hstate hprogress
          tauto
        · split
          · exact .single .requestPayout
          · exact .refl

theorem accountInfo_leads {event : LnEvent} {order : LnOrderRow}
    (ho : getOrder id db = some order) :
    Leads (LnEdge c id) db (((c.ctx price).accountInfo event order db).map Prod.snd) := by
  obtain rfl := getOrder_orderId ho
  unfold LnCtx.accountInfo
  split
  · exact .refl
  · split
    · exact .refl
    · rename_i hs
      split
      · exact .refl
      · split
        · exact .refl
        · rw [accepted_map_snd]
          exact updateOrder_leads ho (.account _ _ (by tauto))

theorem remitRequest_leads {event : LnEvent} {order : LnOrderRow}
    (ho : getOrder id db = some order) (hm : c.moves .invoiced .remitted) :
    Leads (LnEdge c id) db (((c.ctx price).remitRequest event order db).map Prod.snd) := by
  obtain rfl := getOrder_orderId ho
  unfold LnCtx.remitRequest
  split
  · exact .refl
  · split
    · exact .refl
    · rename_i hp
      split
      · exact .refl
      · rename_i hs
        split
        · exact .refl
        · rw [accepted_map_snd]
          exact updateOrder_leads ho (.remit (not_not.mp hs) (by simpa using hp) hm)

theorem paymentConfirm_leads {event : LnEvent} {order : LnOrderRow}
    (ho : getOrder id db = some order) (hb : c.begins) :
    Leads (LnEdge c id) db (((c.ctx price).paymentConfirm event order db).map Prod.snd) := by
  unfold LnCtx.paymentConfirm
  split
  · exact .refl
  · split
    · exact .refl
    · split
      · exact .refl
      · rw [accepted_map_snd]
        exact beginClose_leads ho (fun hr => absurd hr (by decide)) hb

theorem cancelRequest_leads {event : LnEvent} (hu : ∀ h, c.drops h) (hb : c.begins) :
    Leads (LnAbout c event) db (((c.ctx price).cancelRequest event db).map Prod.snd) := by
  unfold LnCtx.cancelRequest
  split
  · exact .refl
  · rename_i orderId hid
    refine Leads.about hid ?_
    split
    · split
      · exact .refl
      · dsimp only
        split
        · rw [accepted_map_snd]
          exact .head (.deleteDraft fun _ _ _ _ => hu _) cancel_leads
        · rw [accepted_map_snd]
          exact .single (.deleteDraft fun _ _ _ _ => hu _)
    · split
      · exact .refl
      · rename_i order ho
        split
        · exact .refl
        · split
          · exact .refl
          · split
            · rw [closeAnswer_map_snd]
              exact beginClose_leads ho (fun hr => absurd hr (by decide)) hb
            · split
              · rw [closeAnswer_map_snd]
                exact beginClose_leads ho (fun hr => absurd hr (by decide)) hb
              · exact .refl

theorem withOrder_leads {handler : LnEvent → LnOrderRow → LnDb → Handled} {event : LnEvent}
    (h : ∀ id order, getOrder id db = some order →
      Leads (LnEdge c id) db ((handler event order db).map Prod.snd)) :
    Leads (LnAbout c event) db ((LnCtx.withOrder handler event db).map Prod.snd) := by
  unfold LnCtx.withOrder
  split
  · exact .refl
  · rename_i orderId hid
    split
    · exact .refl
    · rename_i order ho
      exact Leads.about hid (h _ order ho)

/-- The change of an order's state that a request may make. -/
def LnAction.moves : LnAction → OrderState → OrderState → Prop
  | .claim, .requested, .claimed => True
  | .sponsorInvoice, .escrowed, .invoiced => True
  | .remitRequest, .invoiced, .remitted => True
  | _, _, _ => False

/-- Whatever a handler writes is about the order of the event. -/
theorem handle_about {action : LnAction} {event : LnEvent} (hc : c.claims) (hu : ∀ h, c.drops h)
    (hm : ∀ a b, action.moves a b → c.moves a b) (hb : c.begins)
    (hg : ∀ {id order}, action = .sponsorInvoice → getOrder id db = some order →
      ((order.state = .escrowed ∨ order.state = .invoiced) →
        LnCtx.escrowEndingSoon order db = false) → c.gate id) :
    Leads (LnAbout c event) db (((c.ctx price).handle action event db).map Prod.snd) := by
  cases action with
  | orderRequest => exact orderRequest_leads hu
  | designatedOrderRequest => exact designatedOrderRequest_leads
  | claim => exact withOrder_leads fun _ _ ho => claim_leads hc ho (hm _ _ trivial)
  | sponsorInvoice =>
    exact withOrder_leads fun _ _ ho => sponsorInvoice_leads ho (hm _ _ trivial) (hg rfl ho)
  | accountInfo => exact withOrder_leads fun _ _ ho => accountInfo_leads ho
  | remitRequest => exact withOrder_leads fun _ _ ho => remitRequest_leads ho (hm _ _ trivial)
  | paymentConfirm => exact withOrder_leads fun _ _ ho => paymentConfirm_leads ho hb
  | cancelRequest => exact cancelRequest_leads hu hb

/-- **Requests.**  Whatever a handler writes, it writes by edges. -/
theorem handle_leads {action : LnAction} {event : LnEvent} (hc : c.claims) (hu : ∀ h, c.drops h)
    (hm : ∀ a b, action.moves a b → c.moves a b) (hb : c.begins)
    (hg : ∀ {id order}, action = .sponsorInvoice → getOrder id db = some order →
      ((order.state = .escrowed ∨ order.state = .invoiced) →
        LnCtx.escrowEndingSoon order db = false) → c.gate id) :
    Leads (LnMove c) db (((c.ctx price).handle action event db).map Prod.snd) :=
  (handle_about hc hu hm hb hg).mono fun _ _ ⟨id, _, he⟩ => ⟨id, he⟩

end Requests

/-! ## Commands -/

section Commands

@[simp] theorem closeCommand_map_snd (r : Except Abort (Bool × LnDb)) :
    (LnCtx.closeCommand r).map Prod.snd = r.map Prod.snd := by
  cases r <;> rfl

theorem map_none_map_snd (r : Except Abort LnDb) :
    (r.map fun db => ((none : Option String), db)).map Prod.snd = r := by
  cases r <;> rfl

theorem runCommand_leads {cmd : LnCommand} {order : LnOrderRow} (hu : ∀ h, c.drops h)
    (ho : getOrder id db = some order) (hm : c.moves .claimed .requested) (hb : c.begins) :
    Leads (LnEdge c id) db (((c.ctx price).runCommand cmd order db).map Prod.snd) := by
  obtain rfl := getOrder_orderId ho
  cases cmd with
  | approve => exact approve_leads ho
  | revertClaim =>
    refine .mapIte (fun _ => .refl) fun hs => .mapIte (fun _ => .refl) fun hp => ?_
    rw [map_none_map_snd]
    exact revertClaim_leads ho (not_not.mp hs) (by simpa using hp) (fun _ _ => hu _) hm
  | rule winner =>
    refine .mapIte (fun _ => .refl) fun _ => .mapIte (fun _ => .refl) fun _ => ?_
    rw [closeCommand_map_snd]
    refine beginClose_leads ho (fun hr => absurd hr ?_) hb
    split <;> decide
  | forceClose =>
    refine .mapIte (fun _ => .refl) fun _ => ?_
    rw [closeCommand_map_snd]
    exact beginClose_leads ho (fun hr => absurd hr (by decide)) hb
  | retryPayout =>
    exact .mapIte (fun _ => .refl) fun _ => .mapIte (fun _ => .refl) fun _ =>
      .single .requestPayout
  | manualPayout =>
    refine .mapIte (fun _ => .refl) fun hs => .mapIte (fun _ => .refl) fun _ =>
      .mapIte (fun _ => .refl) fun _ => ?_
    intro db' h
    obtain ⟨⟨e, db₁⟩, hrun, hsnd⟩ := Except.map_eq_ok_iff.mp h
    obtain ⟨db₂, hupd, hrun⟩ := Except.bind_eq_ok_iff.mp hrun
    cases hrun
    obtain rfl : _ = db' := hsnd
    have hpay : order.payable := by
      unfold LnOrderRow.payable
      tauto
    exact (updateOrder_leads ho (.payoutManual _ rfl hpay) _ hupd).tail .requestPayout
  | markDisbursed =>
    refine .mapIte (fun _ => .refl) fun _ => .mapIte (fun _ => .refl) fun hm => ?_
    rw [map_none_map_snd]
    exact updateOrder_leads ho (.markDisbursed (by rw [not_not.mp hm]; rfl))
  | revealRequest =>
    exact .mapIte (fun _ => .refl) fun _ => .mapIte (fun _ => .refl) fun _ => .refl

/-- **Commands.** -/
theorem command_leads {cmd : LnCommand} {version : ℕ} (hu : ∀ h, c.drops h)
    (hm : c.moves .claimed .requested) (hb : c.begins) :
    Leads (LnMove c) db (((c.ctx price).command cmd id version db).map Prod.snd) := by
  unfold LnCtx.command
  split
  · exact .refl
  · rename_i order ho
    exact .mapIte (fun _ => .refl) fun _ => Leads.move id (runCommand_leads hu ho hm hb)

end Commands

/-! ## The clock -/

section Clock

theorem clockDraft_leads {draft : LnDraftRow} (hd : getDraft draft.orderId db = some draft)
    (hover : ∀ dep, currentHold .lnCustomerDeposit draft.orderId draft.customer db = some dep →
      (c.ctx price).overdue dep = true → c.drops dep.paymentHash) :
    Leads (LnEdge c draft.orderId) db ((c.ctx price).clockDraft draft db) := by
  have hnone : currentHold .lnCustomerDeposit draft.orderId draft.customer db = none →
      DraftDroppable c draft.orderId db := by
    intro hn d dep hd' hdep
    obtain rfl := Option.some.inj (hd.symm.trans hd')
    rw [hn] at hdep
    cases hdep
  unfold LnCtx.clockDraft
  split
  · rename_i hdep
    refine .ite (fun _ => .single (.deleteDraft (hnone hdep))) fun _ => ?_
    refine .ite (fun _ => planCustomerDeposit_leads rfl hd (hnone hdep)) fun _ => ?_
    exact insertOrder_deleteDraft_leads rfl (hnone hdep)
  · rename_i dep hdep
    refine .ite (fun hov => ?_) fun _ => .refl
    refine .head (.deleteDraft ?_) cancel_leads
    intro d dep' hd' hdep'
    obtain rfl := Option.some.inj (hd.symm.trans hd')
    obtain rfl := Option.some.inj (hdep.symm.trans hdep')
    exact hover _ hdep hov

theorem clockApprove_leads {order : LnOrderRow} (ho : getOrder id db = some order) :
    Leads (LnEdge c id) db ((c.ctx price).clockApprove order db) :=
  .ite (fun _ => approve_leads ho) fun _ => .refl

/-- The claim waits for the deposit of its sponsor. -/
def AwaitsDeposit (o : LnOrderRow) (db : LnDb) : Prop :=
  o.state = .claimed ∧ o.pendingClose = none ∧ LnCtx.sponsorDepositRequired o db = true ∧
    o.sponsorDepositHash = none

theorem clockClaim_leads {order : LnOrderRow} (ho : getOrder id db = some order)
    (hs : order.state = .claimed)
    (hover : AwaitsDeposit order db → ∀ dep, LnCtx.sponsorDepositOf order db = some dep →
      (c.ctx price).overdue dep = true → c.drops dep.paymentHash)
    (hm : c.moves .claimed .requested) :
    Leads (LnEdge c id) db ((c.ctx price).clockClaim order db) := by
  obtain rfl := getOrder_orderId ho
  refine .ite (fun _ => .refl) fun hp => .ite (fun hreq => ?_) fun _ => clockApprove_leads ho
  have hp : order.pendingClose = none := by simpa using hp
  split
  · exact planSponsorDeposit_leads rfl ⟨order, ho, hs, hp, rfl⟩
  · rename_i dep hdep
    refine .ite (fun hov => ?_) fun _ => clockApprove_leads ho
    refine revertClaim_leads ho hs hp (fun dep' hdep' => ?_) hm
    obtain rfl := Option.some.inj (hdep.symm.trans hdep')
    exact hover ⟨hs, hp, hreq⟩ dep hdep hov

theorem clockUnpaid_leads {order : LnOrderRow} (ho : getOrder id db = some order)
    (hover : order.pendingClose = none → ∀ h r, order.escrowHash = some h →
      db.holds.find h = some r → (c.ctx price).overdue r = true → c.unpaid h) (hb : c.begins) :
    Leads (LnEdge c id) db ((c.ctx price).clockUnpaid order db) := by
  refine .ite (fun _ => .refl) fun hp => ?_
  split
  · exact .refl
  · rename_i escrow hescrow
    refine .ite (fun hov => beginClose_leads ho (fun _ h hh => ?_) hb) fun _ => .refl
    rw [hh] at hescrow
    exact hover (by simpa using hp) h escrow hh hescrow hov

/-- The judgement of `clockExpiry` on an order: it is past its time, or its escrow is ending. -/
def expiring (now : ℤ) (warmedUp : Bool) (height : Option ℕ) (order : LnOrderRow) (db : LnDb) :
    Prop :=
  (warmedUp ∧ LnCtx.closeAt order < now) ∨
    LnCtx.escrowEnding order height escrowEndBlocks db = true

theorem clockExpiry_leads {warmedUp : Bool} {height : Option ℕ} {order : LnOrderRow}
    (ho : getOrder id db = some order)
    (hu : order.state = .verified → order.pendingClose = none →
      expiring c.now warmedUp height order db → ∀ h, order.escrowHash = some h → c.unpaid h)
    (hb : c.begins) :
    Leads (LnEdge c id) db ((c.ctx price).clockExpiry warmedUp height order db) := by
  refine .ite (fun _ => .refl) fun hp => ?_
  split
  · exact .refl
  · rename_i reason hreason
    refine .ite (fun hexp => beginClose_leads ho (fun hr => hu ?_ (by simpa using hp) hexp) hb)
      fun _ => .refl
    unfold expiryReasonFor at hreason
    split at hreason
    all_goals simp only [Option.some.injEq, reduceCtorEq] at hreason
    all_goals subst hreason
    all_goals first
      | assumption
      | (rcases hr with hr | hr <;> split at hr <;> cases hr)
      | (rcases hr with hr | hr <;> cases hr)

theorem clockSafety_leads {height : Option ℕ} {order : LnOrderRow}
    (ho : getOrder id db = some order) (hs : order.state = .remitted) :
    Leads (LnEdge c id) db (LnCtx.clockSafety height order db) := by
  refine .ite (fun _ => .refl) fun hp => ?_
  split
  · exact .refl
  · rename_i escrow hescrow
    refine .ite (fun _ => .single (.dispose _ _ fun _ => ?_)) fun _ => .refl
    obtain ⟨h, hh, hfind⟩ := Option.bind_eq_some_iff.mp hescrow
    obtain rfl := KeyedTable.key_of_find hfind
    exact ⟨order, ho, hs, by simpa using hp, hh⟩

/-- A loop over rows with distinct keys, each of which satisfies `J` when the loop begins: a body
leads by edges about its own row's order, and `J` is kept by the edges about the other orders. -/
theorem loop_leads {Row : Type} (key : Row → OrderId) {rows : List Row}
    {body : Row → LnDb → Except Abort LnDb} {J : Row → LnDb → Prop}
    (hdistinct : rows.Pairwise fun r s => key r ≠ key s)
    (hJ : ∀ r id a b, id ≠ key r → LnEdge c id a b → J r a → J r b) (h₀ : ∀ r ∈ rows, J r db)
    (hbody : ∀ r ∈ rows, ∀ s, J r s → Leads (LnEdge c (key r)) s (body r s)) :
    Leads (fun a b => ∃ r ∈ rows, LnEdge c (key r) a b) db (forEach rows body db) := by
  refine Leads.loop (P := fun r s => r ∈ rows ∧ J r s)
    (fun r hr s h => (hbody r hr s h.2).mono fun a b he => ⟨r, hr, he⟩) ?_
    fun r hr => ⟨hr, h₀ r hr⟩
  refine hdistinct.imp fun {r r'} hne s s' hr hr' hs' => ⟨hr'.1, ?_⟩
  exact (hbody r hr.1 s hr.2 s' hs').keeps (P := J r')
    (fun a b he ha => hJ r' (key r) a b hne he ha) hr'.2

theorem mem_ordersInStates {states : List OrderState} {o : LnOrderRow} :
    o ∈ ordersInStates states db ↔ getOrder o.orderId db = some o ∧ o.state ∈ states := by
  simp only [ordersInStates, List.mem_insertionSort, List.mem_filter, decide_eq_true_eq,
    KeyedTable.mem_rows_iff, getOrder]

theorem pairwise_ordersInStates (states : List OrderState) (db : LnDb) :
    (ordersInStates states db).Pairwise fun a b => a.orderId ≠ b.orderId := by
  have h : ((ordersInStates states db).map LnOrderRow.orderId).Nodup :=
    ((List.perm_insertionSort _ _).map _).nodup_iff.mpr
      (db.track.orders.nodup.sublist (List.Sublist.map _ List.filter_sublist))
  exact List.pairwise_map.mp h

theorem mem_allDrafts {d : LnDraftRow} : d ∈ allDrafts db ↔ getDraft d.orderId db = some d := by
  simp only [allDrafts, List.mem_insertionSort, KeyedTable.mem_rows_iff, getDraft]

theorem pairwise_allDrafts (db : LnDb) :
    (allDrafts db).Pairwise fun a b => a.orderId ≠ b.orderId := by
  have h : ((allDrafts db).map LnDraftRow.orderId).Nodup :=
    ((List.perm_insertionSort _ _).map _).nodup_iff.mpr db.track.drafts.nodup
  exact List.pairwise_map.mp h

end Clock

/-! ## The effects and the poll -/

section Effects

/-- A write to the hold table is an edge about the row's order. -/
theorem HoldStep.move {a b : LnDb} (hs : HoldStep c.node c.now c.touch a b) : LnMove c a b := by
  obtain ⟨r, patch, hr, ht, hrest⟩ := hs
  exact ⟨r.orderId, .setHold ⟨r, patch, hr, ⟨ht, rfl⟩, hrest⟩⟩

/-- `onDone` of `hold.create`. -/
theorem createDone_leads {h : Hash} {result : HoldResult} (hu : ∀ h, c.drops h)
    (hfact : CreateFact c.node h result)
    (hnone : result = .created none → ∀ r, db.holds.find h = some r → r.status ≠ .creating)
    (htouch : ∀ r r' : HoldRow, r'.status = .opened ∨ r'.status = .cancelled →
      r'.htlcExpiryHeight = r.htlcExpiryHeight → c.touch r r')
    (hm : c.moves .claimed .verified ∧ c.moves .claimed .requested) :
    Leads (LnMove c) db (createDone (c.ctx price).holdHooks c.now h result db) := by
  refine leads_createDone (fun a b hs => HoldStep.move hs) hfact hnone
    (fun r r' _ hr' hh => htouch r r' hr' hh) ?_ ?_
  · intro r r' db' hr _ _ hr' hs hkey
    refine Leads.move r'.orderId (holdCreated_leads rfl ?_ (hkey ▸ hr') hs hm.1)
    exact ⟨{ r with status := .creating }, { r with status := .opened }, rfl,
      htouch _ _ (.inl rfl) rfl⟩
  · intro r db' hr _ _
    refine Leads.move r.orderId (holdCreateFailed_leads hu rfl ?_ hm.2)
    exact ⟨{ r with status := .creating }, { r with status := .cancelled }, rfl,
      htouch _ _ (.inr rfl) rfl⟩

theorem recordDisposal_leads {h : Hash} {final : HoldFinal} {via : DisposedVia}
    (hagree : HoldsAgree c.node db.holds) (hend : Ended c.node h final)
    (htouch : ∀ r r' : HoldRow, r'.Final → r'.htlcExpiryHeight = r.htlcExpiryHeight →
      c.touch r r') :
    Leads (LnMove c) db (recordDisposal (c.ctx price).holdHooks c.now h final via db) := by
  refine leads_recordDisposal (fun a b hs => HoldStep.move hs) hagree hend
    (fun r r' _ hr' hh => htouch r r' ?_ hh) fun r db' hr _ _ =>
      Leads.move r.orderId (holdDisposed_leads final via rfl)
  cases final
  · exact .inl hr'
  · exact .inr hr'

/-- `onDone` of `hold.dispose`. -/
theorem disposeDone_leads {h : Hash} {action : DisposeAction} {result : HoldResult}
    (hagree : HoldsAgree c.node db.holds)
    (hend : ∀ final, result = .disposed final → Ended c.node h final)
    (htouch : ∀ r r' : HoldRow, r'.Final → r'.htlcExpiryHeight = r.htlcExpiryHeight →
      c.touch r r') :
    Leads (LnMove c) db (disposeDone (c.ctx price).holdHooks c.now h action result db) := by
  unfold disposeDone
  split
  · exact recordDisposal_leads hagree (hend _ rfl) htouch
  · exact .refl

/-- The poll. -/
theorem observe_leads {h : Hash} {lookup : Option HoldLookup} (hu : ∀ h, c.drops h)
    (hun : (∃ inv, c.node h = some inv ∧ inv.state = .cancelled) → c.unpaid h)
    (hagree : HoldsAgree c.node db.holds)
    (hfact : ∀ l, lookup = some l → LookupFact c.node h lookup)
    (htouch : ∀ r r' : HoldRow, r.paymentHash = h → r.status ≠ .creating →
      (r'.htlcExpiryHeight = r.htlcExpiryHeight ∨
        ∃ l, lookup = some l ∧ r'.htlcExpiryHeight = l.htlcExpiryHeight) → c.touch r r')
    (hm : c.moves .verified .escrowed ∧ c.moves .claimed .requested) (hb : c.begins) :
    Leads (LnMove c) db (observe (c.ctx price).holdHooks c.now h lookup db) := by
  refine leads_observe (fun a b hs => HoldStep.move hs) hagree hfact ?_ ?_ ?_
  · intro r r' r'' hr hobs hsame hheight
    refine htouch r' r'' (hsame.paymentHash.trans (KeyedTable.key_of_find hr)) ?_ hheight
    rw [hsame.status]
    rcases hobs.1 with h | h <;> rw [h] <;> decide
  · intro r db' hr _ _ _ r' _ _ _ _
    exact Leads.move r'.orderId (holdAccepted_leads hu rfl hm.1)
  · intro r db' hr _ _ _ hend
    refine Leads.move r.orderId (holdNodeCancelled_leads hu rfl ?_ hm.2 hb)
    rw [KeyedTable.key_of_find hr]
    exact hun hend

/-- `onRetry` of `ln.payout`; the error is a text of the node or of a rolled back transaction. -/
theorem payoutRetry_leads {error : String} (hne : error ≠ payoutInvoiceExpired)
    (hnm : isManualPayout (some error) = false) :
    Leads (LnMove c) db ((c.ctx price).payoutRetry id error db) := by
  unfold LnCtx.payoutRetry
  split
  · exact .refl
  · rename_i order ho
    refine .ite (fun _ => .refl) fun hm => .ite (fun _ => ?_) fun _ => .refl
    exact Leads.move id (updateOrder_leads ho (.payoutError error (by simpa using hm) hne hnm))

/-- What a run of `ln.payout` has to establish for its outcome. -/
def OutcomeFact (c : EdgeCtx) (id : OrderId) (o : LnOrderRow) : PayoutOutcome → Prop
  | .manual _ => o.payable
  | .expired bolt11 => o.sponsorInvoice = some bolt11 → o.payable ∧ c.idle id ∧
      ∃ info, readBolt11 c.env bolt11 = some info ∧ info.expiresAt ≤ c.now + 30
  | _ => True

/-- `onDone` of `ln.payout`. -/
theorem payoutDone_leads {outcome : PayoutOutcome} (hend : c.pays id)
    (hfact : ∀ o, getOrder id db = some o → OutcomeFact c id o outcome) :
    Leads (LnMove c) db ((c.ctx price).payoutDone id outcome db) := by
  unfold LnCtx.payoutDone
  split
  · exact .refl
  · rename_i order ho
    refine Leads.move id ?_
    have hfact := hfact order ho
    obtain rfl := getOrder_orderId ho
    split
    · exact .refl
    · exact updateOrder_leads ho (.disbursed hend)
    · refine .ite (fun _ => .single .requestPayout) fun _ => .ite (fun _ => ?_) fun _ => .refl
      exact updateOrder_leads ho (.payoutManual _ rfl hfact)
    · refine .ite (fun _ => .single .requestPayout) fun hb => .ite (fun _ => .single .requestPayout)
        fun hm => .ite (fun _ => .refl) fun _ => ?_
      obtain ⟨hpay, hidle, info, hread, hexp⟩ := hfact (not_not.mp hb)
      exact updateOrder_leads ho (.payoutExpired _ info (not_not.mp hb) hread hexp hidle
        (by simpa using hm) hpay)

/-- `onDead` of `ln.close`: only a reason that takes the escrow is abandoned. -/
theorem abandonClose_leads (hend : c.closes id)
    (hfact : ∀ o reason, getOrder id db = some o → o.pendingClose = some reason →
      reason.rule.escrow = .settle ∧ ∀ h, o.escrowHash = some h → ¬ Ended c.node h .settled) :
    Leads (LnMove c) db ((c.ctx price).abandonClose id db) := by
  unfold LnCtx.abandonClose
  split
  · exact .refl
  · rename_i order ho
    refine .ite (fun _ => .refl) fun hp => Leads.move id ?_
    obtain ⟨reason, hr⟩ := Option.ne_none_iff_exists'.mp hp
    obtain rfl := getOrder_orderId ho
    obtain ⟨hset, hlost⟩ := hfact order reason ho hr
    exact updateOrder_leads ho (.abandon reason hr hset hend hlost)

/-- The other track plans an invoice of its own. -/
theorem otherTrack_leads {p : HoldPlan} (hp : p.purpose ∉ lnHoldPurposes) :
    Leads (LnMove c) db ((plan c.env.keys c.now p db).map Prod.snd) := by
  intro db' h
  obtain ⟨⟨row, db₁⟩, hplan, rfl⟩ := Except.map_eq_ok_iff.mp h
  obtain ⟨hash, attempt, holds, rfl, hd, hins, hdb⟩ := plan_spec hplan
  subst hdb
  exact .single ⟨p.orderId, .planOther p hash attempt holds rfl hp hd hins⟩

end Effects

end LnPay
