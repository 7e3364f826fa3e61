/-
# The close effect

What `ln.close` does to the ledger at its end, and what it goes through on its
way there.

* `batch_spec`: after the ends are recorded every invoice named among them has
  its end on record, and the orders keep what the close is about,
* `finishClose_leads` and `finishClose_spec`: the terminal state, written by edges,
* `MaySettle`: what the rule of a reason lets the close settle,
* `mem_closeTodo` and `covered_closeTodo`: the list of the remaining invoices.
-/
import LnPay.LnInvariants

namespace LnPay

variable {c : EdgeCtx} {id id' : OrderId} {db db' : LnDb} {price : Option ℚ}

/-! ## Recording the ends -/

/-- Two versions of an order that agree in what a close is about. -/
structure LnOrderRow.SameClose (o o' : LnOrderRow) : Prop where
  orderId : o'.orderId = o.orderId
  state : o'.state = o.state
  sponsor : o'.sponsor = o.sponsor
  escrowHash : o'.escrowHash = o.escrowHash
  pendingClose : o'.pendingClose = o.pendingClose

theorem LnOrderRow.SameClose.refl (o : LnOrderRow) : o.SameClose o := ⟨rfl, rfl, rfl, rfl, rfl⟩

theorem LnOrderRow.SameClose.trans {o o' o'' : LnOrderRow} (h : o.SameClose o')
    (h' : o'.SameClose o'') : o.SameClose o'' :=
  ⟨h'.1.trans h.1, h'.2.trans h.2, h'.3.trans h.3, h'.4.trans h.4, h'.5.trans h.5⟩

/-- `disposed` only notes a settled escrow. -/
theorem holdDisposed_spec {before : HoldRow} {final : HoldFinal} (via : DisposedVia)
    (h : (c.ctx price).holdDisposed before final via db = .ok db') :
    db'.holds = db.holds ∧ db'.effects = db.effects ∧
      ∀ id o, getOrder id db = some o → ∃ o', getOrder id db' = some o' ∧ o.SameClose o' := by
  have hsame : db.holds = db.holds ∧ db.effects = db.effects ∧
      ∀ id o, getOrder id db = some o → ∃ o', getOrder id db = some o' ∧ o.SameClose o' :=
    ⟨rfl, rfl, fun _ o ho => ⟨o, ho, .refl o⟩⟩
  unfold LnCtx.holdDisposed at h
  split at h
  · exact Except.ok.inj h ▸ hsame
  · split at h
    · rename_i order ho
      split at h
      · obtain rfl := eq_setOrder_of_updateOrder h
        refine ⟨rfl, rfl, fun id o ho => ?_⟩
        rw [getOrder_setOrder, ho]
        split
        · exact ⟨_, rfl, rfl, rfl, rfl, rfl, rfl⟩
        · exact ⟨o, rfl, .refl o⟩
      · exact Except.ok.inj h ▸ hsame
    · exact Except.ok.inj h ▸ hsame

/-- What recording ends does to the ledger: no effect, no row gone or new, the orders as they were
in what a close is about; the invoices in `ended` have their end on record. -/
structure EndsRecorded (ended : Hash → Prop) (db db' : LnDb) : Prop where
  effects : db'.effects = db.effects
  orders : ∀ id o, getOrder id db = some o → ∃ o', getOrder id db' = some o' ∧ o.SameClose o'
  rows : ∀ h r, db.holds.find h = some r →
    ∃ r', db'.holds.find h = some r' ∧ (ended h ∨ r.Final → r'.Final)
  noNew : ∀ h, db.holds.find h = none → db'.holds.find h = none

theorem EndsRecorded.refl (db : LnDb) : EndsRecorded (fun _ => False) db db where
  effects := rfl
  orders _ o ho := ⟨o, ho, .refl o⟩
  rows _ r hr := ⟨r, hr, fun h => h.elim False.elim fun hf => hf⟩
  noNew _ h := h

theorem EndsRecorded.trans {p q : Hash → Prop} {db₁ db₂ db₃ : LnDb}
    (h : EndsRecorded p db₁ db₂) (h' : EndsRecorded q db₂ db₃) :
    EndsRecorded (fun h => p h ∨ q h) db₁ db₃ where
  effects := h'.effects.trans h.effects
  orders := by
    intro id o ho
    obtain ⟨o', ho', hs⟩ := h.orders id o ho
    obtain ⟨o'', ho'', hs'⟩ := h'.orders id o' ho'
    exact ⟨o'', ho'', hs.trans hs'⟩
  rows := by
    intro hash r hr
    obtain ⟨r', hr', hf⟩ := h.rows hash r hr
    obtain ⟨r'', hr'', hf'⟩ := h'.rows hash r' hr'
    refine ⟨r'', hr'', fun hend => hf' ?_⟩
    rcases hend with (hp | hq) | hfin
    · exact .inr (hf (.inl hp))
    · exact .inl hq
    · exact .inr (hf (.inr hfin))
  noNew hash hn := h'.noNew hash (h.noNew hash hn)

theorem HoldFinal.status_final (f : HoldFinal) : f.status = .settled ∨ f.status = .cancelled := by
  cases f
  · exact .inl rfl
  · exact .inr rfl

/-- `recordDisposal`. -/
theorem recordDisposal_spec {h : Hash} {final : HoldFinal} {via : DisposedVia}
    (hr : recordDisposal (c.ctx price).holdHooks c.now h final via db = .ok db') :
    EndsRecorded (· = h) db db' := by
  unfold recordDisposal at hr
  split at hr
  · rename_i hn
    obtain rfl := Except.ok.inj hr
    refine ⟨rfl, fun _ o ho => ⟨o, ho, .refl o⟩, fun h' r hr => ⟨r, hr, ?_⟩, fun _ h => h⟩
    rintro (rfl | hf)
    · rw [hn] at hr
      cases hr
    · exact hf
  · rename_i before hbefore
    split at hr
    · rename_i hdone
      obtain rfl := Except.ok.inj hr
      refine ⟨rfl, fun _ o ho => ⟨o, ho, .refl o⟩, fun h' r hr => ⟨r, hr, ?_⟩, fun _ h => h⟩
      rintro (rfl | hf)
      · obtain rfl := Option.some.inj (hbefore.symm.trans hr)
        unfold HoldRow.Final
        rw [hdone]
        exact final.status_final
      · exact hf
    · obtain ⟨hholds, heff, hord⟩ := holdDisposed_spec via hr
      refine ⟨heff, hord, fun h' r hr => ?_, fun h' hn => ?_⟩
      · rw [hholds, find_setHold]
        split
        · rename_i he
          rw [hr]
          exact ⟨_, rfl, fun _ => final.status_final⟩
        · rename_i hne
          exact ⟨r, hr, fun h => h.elim (fun he => absurd he hne) fun hf => hf⟩
      · rw [hholds, find_setHold, hn]
        split <;> rfl

/-- **The batch.**  Every invoice named among the ends has its end on record afterwards. -/
theorem batch_spec {finals : List (Hash × HoldFinal)}
    (h : forEach finals (fun f => recordDisposal (c.ctx price).holdHooks c.now f.1 f.2 .batch) db =
      .ok db') : EndsRecorded (fun h => ∃ f ∈ finals, f.1 = h) db db' := by
  induction finals generalizing db with
  | nil =>
    obtain rfl := Except.ok.inj h
    have := EndsRecorded.refl db
    simpa using this
  | cons f finals ih =>
    rw [forEach_cons] at h
    obtain ⟨db₁, h₁, h₂⟩ := Except.bind_eq_ok_iff.mp h
    have := (recordDisposal_spec h₁).trans (ih h₂)
    refine ⟨this.effects, this.orders, fun hash r hr => ?_, this.noNew⟩
    obtain ⟨r', hr', hf⟩ := this.rows hash r hr
    refine ⟨r', hr', fun hend => hf ?_⟩
    rcases hend with ⟨g, hg, rfl⟩ | hfin
    · rcases List.mem_cons.mp hg with rfl | hg
      · exact .inl (.inl rfl)
      · exact .inl (.inr ⟨g, hg, rfl⟩)
    · exact .inr hfin

theorem batch_leads {finals : List (Hash × HoldFinal)}
    (hagree : HoldsAgree c.node db.holds) (hend : ∀ f ∈ finals, Ended c.node f.1 f.2)
    (htouch : ∀ r r' : HoldRow, r'.Final → r'.htlcExpiryHeight = r.htlcExpiryHeight →
      c.touch r r') :
    Leads (LnMove c) db (forEach finals
      (fun f => recordDisposal (c.ctx price).holdHooks c.now f.1 f.2 .batch) db) := by
  induction finals generalizing db with
  | nil => exact .refl
  | cons f finals ih =>
    rw [forEach_cons]
    have hstep : Leads (LnMove c) db
        (recordDisposal (c.ctx price).holdHooks c.now f.1 f.2 .batch db) :=
      recordDisposal_leads hagree (hend f List.mem_cons_self) htouch
    refine hstep.bind fun db₁ hdb₁ => ih ?_ fun g hg => hend g (List.mem_cons_of_mem f hg)
    exact (hstep db₁ hdb₁).keeps (fun a b ⟨_, he⟩ => he.holdsAgree) hagree

/-! ## The terminal state -/

/-- What a close has to bring to its end: the ends are those on the node, and one that takes the
escrow has taken it. -/
structure CloseFact (node : LnNode) (db : LnDb) (id : OrderId)
    (finals : List (Hash × HoldFinal)) : Prop where
  ended : ∀ f ∈ finals, Ended node f.1 f.2
  taken : ∀ o reason, getOrder id db = some o → o.pendingClose = some reason →
    reason.rule.escrow = .settle →
      ∃ r, o.escrowHash = some r.paymentHash ∧ db.holds.find r.paymentHash = some r ∧
        (r.paymentHash, .settled) ∈ finals

/-- The ledger with the terminal state of a reason written into an order. -/
def closeOrder (now : ℤ) (id : OrderId) (reason : LnCloseReason) (db : LnDb) : LnDb :=
  setOrder now id (fun o => { o with
    state := reason.rule.terminal, closeReason := some reason, pendingClose := none }) db

/-- `finishClose`, cut open. -/
theorem finishClose_cases {finals : List (Hash × HoldFinal)}
    (h : (c.ctx price).finishClose id finals db = .ok db') :
    db' = db ∧ (∀ o, getOrder id db = some o → o.pendingClose = none) ∨
    ∃ o reason db₁ o₁, getOrder id db = some o ∧ o.pendingClose = some reason ∧
      forEach finals (fun f => recordDisposal (c.ctx price).holdHooks c.now f.1 f.2 .batch) db =
        .ok db₁ ∧ getOrder id db₁ = some o₁ ∧ o.SameClose o₁ ∧
      (db' = closeOrder c.now id reason db₁ ∨
        db' = LnCtx.requestPayout id (closeOrder c.now id reason db₁)) := by
  unfold LnCtx.finishClose at h
  split at h
  · rename_i hn
    obtain rfl := Except.ok.inj h
    exact .inl ⟨rfl, fun o ho => by rw [hn] at ho; cases ho⟩
  · rename_i order ho
    split at h
    · rename_i hp
      obtain rfl := Except.ok.inj h
      refine .inl ⟨rfl, fun o ho' => ?_⟩
      obtain rfl := Option.some.inj (ho.symm.trans ho')
      exact hp
    · rename_i reason hp
      obtain ⟨db₁, h₁, h⟩ := Except.bind_eq_ok_iff.mp h
      obtain ⟨db₂, h₂, h⟩ := Except.bind_eq_ok_iff.mp h
      obtain ⟨o₁, ho₁, hsame⟩ := (batch_spec h₁).orders id order ho
      refine .inr ⟨order, reason, db₁, o₁, ho, hp, h₁, ho₁, hsame, ?_⟩
      obtain rfl : db₂ = closeOrder c.now id reason db₁ := eq_setOrder_of_updateOrder h₂
      obtain rfl := Except.ok.inj h
      split
      · exact .inr rfl
      · exact .inl rfl

theorem finishClose_leads {finals : List (Hash × HoldFinal)}
    (hagree : HoldsAgree c.node db.holds) (hfact : CloseFact c.node db id finals)
    (htouch : ∀ r r' : HoldRow, r'.Final → r'.htlcExpiryHeight = r.htlcExpiryHeight →
      c.touch r r') (hends : c.closes id) :
    Leads (LnMove c) db ((c.ctx price).finishClose id finals db) := by
  intro db' h
  rcases finishClose_cases h with ⟨rfl, -⟩ | ⟨o, reason, db₁, o₁, ho, hp, h₁, ho₁, hsame, h⟩
  · exact .refl
  · have hbatch := batch_leads (c := c) hagree hfact.ended htouch db₁ h₁
    have hmoved : HoldsAgree c.node db₁.holds :=
      hbatch.keeps (fun a b ⟨_, he⟩ => he.holdsAgree) hagree
    obtain rfl := getOrder_orderId ho
    have hfinish : LnMove c db₁ (closeOrder c.now o.orderId reason db₁) := by
      refine ⟨o.orderId, .updateOrder o₁ _ ho₁
        (.finish reason (hsame.pendingClose.trans hp) (hsame.orderId ▸ hends) fun hset => ?_)⟩
      -- the escrow's end is on record and it is the node's
      obtain ⟨r, hash, hr, hmem⟩ := hfact.taken o reason ho hp hset
      obtain ⟨r₁, hr₁, hfinal⟩ := (batch_spec h₁).rows _ r hr
      have hkey : r₁.paymentHash = r.paymentHash := KeyedTable.key_of_find hr₁
      refine ⟨r₁, hsame.escrowHash.trans (hkey ▸ hash), hkey ▸ hr₁, ?_⟩
      have hag := hmoved _ _ hr₁
      have hend := hfact.ended _ hmem
      rcases hfinal (.inl ⟨_, hmem, rfl⟩) with hs | hs
      · exact hs
      · rw [Agrees, hs] at hag
        exact absurd (hag.unique (hkey ▸ hend) (.inr rfl)) (by decide)
    rcases h with rfl | rfl
    · exact hbatch.tail hfinish
    · exact (hbatch.tail hfinish).tail ⟨o.orderId, .requestPayout⟩

/-! ## What a close goes through -/

/-- What the rule of a reason lets the close of an order settle: the escrow, the customer's deposit,
the deposit of the order's sponsor. -/
def MaySettle (db : LnDb) (o : LnOrderRow) (rule : CloseRule) (h : Hash) : Prop :=
  (rule.escrow = .settle ∧ o.escrowHash = some h) ∨
    ∃ r, db.holds.find h = some r ∧ r.orderId = o.orderId ∧
      ((r.purpose = .lnCustomerDeposit ∧ rule.customerDeposit = .forfeit) ∨
        (r.purpose = .lnSponsorDeposit ∧ o.sponsor = some r.party ∧ rule.sponsorDeposit = .forfeit))

theorem mem_closeTodo {order : LnOrderRow} {rule : CloseRule} {inv : HoldRow}
    {want : DisposeAction} (h : (inv, want) ∈ LnCtx.closeTodo order rule db) :
    db.holds.find inv.paymentHash = some inv ∧ inv.orderId = order.orderId ∧
      (want = .settle → MaySettle db order rule inv.paymentHash) := by
  obtain ⟨r, hr, hsome⟩ := List.mem_filterMap.mp h
  obtain ⟨hfind, hid, hpurpose⟩ := mem_holdsOf.mp hr
  split at hsome
  · split at hsome
    · cases hsome
      exact ⟨hfind, hid, fun h => by cases h⟩
    · cases hsome
  · rename_i hesc
    split at hsome
    · obtain ⟨rfl, rfl⟩ := Prod.mk.inj (Option.some.inj hsome)
      refine ⟨hfind, hid, fun hwant => .inr ⟨r, hfind, hid, ?_⟩⟩
      have hforfeit : ∀ d : Disposition,
          (if d = .forfeit then DisposeAction.settle else .cancel) = .settle → d = .forfeit := by
        intro d
        cases d <;> decide
      split at hwant
      · exact .inl ⟨‹_›, hforfeit _ hwant⟩
      · split at hwant
        · rename_i hparty
          refine .inr ⟨?_, hparty.symm, hforfeit _ hwant⟩
          simp only [lnHoldPurposes, List.mem_cons, List.not_mem_nil, or_false] at hpurpose
          tauto
        · cases hforfeit _ hwant
    · cases hsome

/-- Every invoice of the order that is not finished is on the list, but for its escrow. -/
theorem covered_closeTodo {order : LnOrderRow} (rule : CloseRule) {r : HoldRow}
    (hr : db.holds.find r.paymentHash = some r) (hid : r.orderId = order.orderId)
    (hpurpose : r.purpose ∈ lnHoldPurposes) :
    r.Final ∨ order.escrowHash = some r.paymentHash ∨
      ∃ want, (r, want) ∈ LnCtx.closeTodo order rule db := by
  by_cases hfin : r.Final
  · exact .inl hfin
  · have hlive : isLiveHold r = true := by
      rw [isLiveHold_iff]
      exact not_or.mp hfin
    by_cases hesc : order.escrowHash = some r.paymentHash
    · exact .inr (.inl hesc)
    · refine .inr (.inr ?_)
      have hmem : r ∈ holdsOf order.orderId lnHoldPurposes db := mem_holdsOf.mpr ⟨hr, hid, hpurpose⟩
      suffices ∃ want, (if r.purpose = .lnEscrow then
          if some r.paymentHash ≠ order.escrowHash ∧ isLiveHold r then
            some (r, DisposeAction.cancel) else none
          else if isLiveHold r then
            some (r, if (if r.purpose = .lnCustomerDeposit then rule.customerDeposit
              else if some r.party = order.sponsor then rule.sponsorDeposit else .refund) =
                .forfeit then DisposeAction.settle else DisposeAction.cancel)
          else none) = some (r, want) from
        this.imp fun _ hw => List.mem_filterMap.mpr ⟨r, hmem, hw⟩
      by_cases hp : r.purpose = .lnEscrow
      · exact ⟨.cancel, by rw [if_pos hp, if_pos ⟨fun h => hesc h.symm, hlive⟩]⟩
      · exact ⟨_, by rw [if_neg hp, if_pos hlive]⟩

end LnPay
