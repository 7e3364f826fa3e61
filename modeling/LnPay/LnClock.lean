/-
# The clock leads by edges

The five loops of the clock change the ledger as they go, but each row is judged
as it was when the tick began: an edge about one order leaves the deposits of the
others alone (`LnEdge.currentHold_of_ne`), and nothing the clock does verifies an
order or writes to the hold table (`SinceTick`).
-/
import LnPay.LnInvariants

namespace LnPay

variable {c : EdgeCtx} {id id' : OrderId} {db db' db₀ : LnDb} {price : Option ℚ}

/-! ## What the edges leave alone -/

/-- Planning for one order adds no row of another. -/
theorem filter_planned {p : HoldPlan} {hash : Hash} {attempt : ℕ} {now : ℤ} {e : Effect LnEffect}
    {holds : KeyedTable HoldRow.paymentHash} {q : HoldRow → Bool}
    (hins : db.holds.insert (p.row hash attempt now) = some holds)
    (hq : q (p.row hash attempt now) = false) :
    ({ db with holds := holds }.enqueue e).holds.rows.filter q = db.holds.rows.filter q := by
  rw [Db.enqueue_holds, KeyedTable.rows_of_insert hins, List.filter_append, List.filter_singleton,
    hq, Bool.cond_false, List.append_nil]

/-- An edge leaves the invoices of the other orders alone. -/
theorem LnEdge.currentHold_of_ne (he : LnEdge c id db db') (hne : id' ≠ id)
    (purpose : HoldPurpose) (party : Pubkey) :
    currentHold purpose id' party db' = currentHold purpose id' party db := by
  suffices h : db'.holds.rows.filter (fun r => r.purpose = purpose ∧ r.orderId = id' ∧
      r.party = party ∧ r.status ≠ .cancelled) = db.holds.rows.filter fun r =>
        r.purpose = purpose ∧ r.orderId = id' ∧ r.party = party ∧ r.status ≠ .cancelled by
    rw [currentHold, currentHold, h]
  have hother : ∀ r : HoldRow, r.orderId = id → ¬ (r.purpose = purpose ∧ r.orderId = id' ∧
      r.party = party ∧ r.status ≠ .cancelled) :=
    fun r hr h => hne (h.2.1.symm.trans hr)
  cases he with
  | insertOrder => rfl
  | insertDraft => rfl
  | deleteDraft => rfl
  | plan p hash attempt _ hid _ _ hins =>
    exact filter_planned hins (decide_eq_false (hother (p.row hash attempt c.now) hid))
  | planOther p hash attempt _ hid _ _ hins =>
    exact filter_planned hins (decide_eq_false (hother (p.row hash attempt c.now) hid))
  | dispose => rw [dispose_holds]
  | requestPayout => rw [LnCtx.requestPayout, Db.enqueue_holds]
  | setHold h =>
    obtain ⟨r, patch, hr, ht, -, -, rfl⟩ := h
    refine KeyedTable.filter_update (t := db.holds) (f := (·.patched patch c.now)) (fun _ => rfl)
      fun s hs => ?_
    obtain rfl := Option.some.inj (hr.symm.trans hs)
    exact ⟨decide_eq_false (hother r ht.2), decide_eq_false (hother (r.patched patch c.now) ht.2)⟩
  | updateOrder => rfl
  | beginClose =>
    rw [Db.enqueue_holds]
    rfl

theorem LnEdge.sponsorDepositOf_of_ne (he : LnEdge c id db db') {o : LnOrderRow}
    (hne : o.orderId ≠ id) : LnCtx.sponsorDepositOf o db' = LnCtx.sponsorDepositOf o db := by
  unfold LnCtx.sponsorDepositOf
  split
  · exact he.currentHold_of_ne hne _ _
  · rfl

/-- No edge changes the settings. -/
theorem LnEdge.settings (he : LnEdge c id db db') :
    db'.track.settings = db.track.settings := by
  cases he with
  | plan => rw [Db.enqueue_track]
  | planOther => rw [Db.enqueue_track]
  | dispose => rw [dispose_track]
  | requestPayout => rw [LnCtx.requestPayout, Db.enqueue_track]
  | setHold h =>
    obtain ⟨_, _, -, -, -, -, rfl⟩ := h
    rfl
  | beginClose =>
    rw [Db.enqueue_track]
    rfl
  | _ => rfl

/-! ## Since the tick began -/

/-- The context of the clock: no claim is taken, no hold row is written, no close comes to its
end. -/
structure EdgeCtx.Ticking (c : EdgeCtx) : Prop where
  claims : ¬ c.claims
  touch : ∀ r r', ¬ c.touch r r'
  closes : ∀ id, ¬ c.closes id
  reverts : c.moves .claimed .requested
  begins : c.begins

/-- What has stayed as it was when the tick began. -/
structure SinceTick (db₀ db : LnDb) : Prop where
  rows : ∀ h r, db.holds.find h = some r → db₀.holds.find h = some r ∨
    (db₀.holds.find h = none ∧ r.status = .creating ∧ r.htlcExpiryHeight = none)
  kept : ∀ h r, db₀.holds.find h = some r → db.holds.find h = some r
  settings : db.track.settings = db₀.track.settings
  claimed : ∀ id o, getOrder id db = some o → o.state = .claimed → getOrder id db₀ ≠ none
  verified : ∀ id o, getOrder id db = some o → o.state = .verified → o.pendingClose = none →
    ∃ o₀, getOrder id db₀ = some o₀ ∧ o₀.state = .verified ∧ o₀.pendingClose = none ∧
      o₀.escrowHash = o.escrowHash ∧ o₀.deadline = o.deadline

theorem SinceTick.refl (db : LnDb) : SinceTick db db :=
  ⟨fun _ _ h => .inl h, fun _ _ h => h, rfl, fun _ _ h _ => by simp [h],
    fun _ o h hs hp => ⟨o, h, hs, hp, rfl, rfl⟩⟩

/-- An order that is claimed after an edge of the clock was claimed before. -/
theorem OrderStep.claimed_of_ticking (hc : c.Ticking) {o p : LnOrderRow} (hs : OrderStep c db o p)
    (h : p.state = .claimed) : o.state = .claimed := by
  cases hs with
  | claim _ _ _ hcl => exact absurd hcl hc.claims
  | revert => cases h
  | verify => cases h
  | escrowed => cases h
  | firstInvoice => cases h
  | remit => cases h
  | finish reason => cases reason <;> cases h
  | _ => exact h

/-- An order that waits for its escrow after an edge of the clock did so before. -/
theorem OrderStep.verified_of_ticking (hc : c.Ticking) {o p : LnOrderRow} (hs : OrderStep c db o p)
    (h : p.state = .verified) (hp : p.pendingClose = none) :
    o.state = .verified ∧ o.pendingClose = none ∧ p.escrowHash = o.escrowHash := by
  cases hs with
  | claim => cases h
  | revert => cases h
  | approve _ _ hs => exact absurd (hs.symm.trans h) (by decide)
  | unapprove hs => exact absurd (hs.symm.trans h) (by decide)
  | verify _ _ _ _ _ ht =>
    obtain ⟨r, r', -, ht⟩ := ht
    exact absurd ht (hc.touch r r')
  | escrowed => cases h
  | firstInvoice => cases h
  | remit => cases h
  | abandon _ _ _ hend => exact absurd hend (hc.closes _)
  | finish reason => cases reason <;> cases h
  | _ => exact ⟨h, hp, rfl⟩

theorem LnEdge.sinceTick (hc : c.Ticking) (he : LnEdge c id db db') (h : SinceTick db₀ db) :
    SinceTick db₀ db' where
  rows hash r hr := by
    rcases he.find_cases hr with hr | ⟨hn, p, attempt, rfl, -⟩ | ⟨s, -, -, ht, -⟩
    · exact h.rows hash r hr
    · refine .inr ⟨?_, rfl, rfl⟩
      by_contra hne
      obtain ⟨s, hs⟩ := Option.ne_none_iff_exists'.mp hne
      rw [h.kept hash s hs] at hn
      cases hn
    · exact absurd ht (hc.touch _ _)
  kept hash r hr := by
    obtain ⟨r', hr', -⟩ := he.find_later (h.kept hash r hr)
    rcases he.find_cases hr' with hr'' | ⟨hn, -⟩ | ⟨s, -, -, ht, -⟩
    · rw [hr', ← hr'', h.kept hash r hr]
    · rw [h.kept hash r hr] at hn
      cases hn
    · exact absurd ht (hc.touch _ _)
  settings := he.settings.trans h.settings
  claimed id o ho hs := by
    rcases he.order_cases ho with ho | ⟨-, -, n, rfl⟩ | ⟨o₁, p, ho₁, -, -, hstep, rfl⟩ |
      ⟨o₁, reason, ho₁, -, -, -, -, rfl⟩
    · exact h.claimed id o ho hs
    · cases hs
    · exact h.claimed id o₁ ho₁ (hstep.claimed_of_ticking hc hs)
    · exact h.claimed id o₁ ho₁ hs
  verified id o ho hs hp := by
    rcases he.order_cases ho with ho | ⟨-, -, n, rfl⟩ | ⟨o₁, p, ho₁, -, -, hstep, rfl⟩ |
      ⟨o₁, reason, ho₁, -, -, -, -, rfl⟩
    · exact h.verified id o ho hs hp
    · cases hs
    · obtain ⟨hs₁, hp₁, hesc⟩ := hstep.verified_of_ticking hc hs hp
      obtain ⟨o₀, ho₀, hs₀, hp₀, hesc₀, hd⟩ := h.verified id o₁ ho₁ hs₁ hp₁
      exact ⟨o₀, ho₀, hs₀, hp₀, hesc₀.trans hesc.symm, hd⟩
    · cases hp

/-- An order that waits for its escrow is past its time, or its escrow is ending, only if that was
so when the tick began. -/
theorem SinceTick.expiring {now : ℤ} {warmedUp : Bool} {height : Option ℕ} {o o₀ : LnOrderRow}
    (h : SinceTick db₀ db) (hs : o.state = .verified) (hs₀ : o₀.state = .verified)
    (hesc : o₀.escrowHash = o.escrowHash) (hd : o₀.deadline = o.deadline)
    (hexp : expiring now warmedUp height o db) : expiring now warmedUp height o₀ db₀ := by
  rcases hexp with ⟨hw, hlt⟩ | hend
  · refine .inl ⟨hw, ?_⟩
    simpa only [LnCtx.closeAt, hs, hs₀, hd, reduceCtorEq, if_false] using hlt
  · refine .inr ?_
    unfold LnCtx.escrowEnding at hend ⊢
    rw [hesc]
    split at hend
    · rename_i height escrow hheight hescrow
      obtain ⟨hash, hh, hr⟩ := Option.bind_eq_some_iff.mp hescrow
      rcases h.rows hash escrow hr with hr₀ | ⟨-, -, hn⟩
      · rw [hh, Option.bind_some, hr₀, hheight]
        exact hend
      · rw [hn] at hend
        cases hend
    · cases hend

/-! ## The five loops -/

/-- **The clock.**  What it takes for unpaid it has judged from the ledger as the tick began. -/
theorem clock_leads {startedAt : ℤ} {height : Option ℕ} (hc : c.Ticking)
    (hno : ∀ id, getOrder id db ≠ none → getDraft id db = none)
    (hdraft : ∀ d dep, getDraft d.orderId db = some d →
      currentHold .lnCustomerDeposit d.orderId d.customer db = some dep →
      (c.ctx price).overdue dep = true → c.drops dep.paymentHash)
    (hclaim : ∀ o dep, getOrder o.orderId db = some o → AwaitsDeposit o db →
      LnCtx.sponsorDepositOf o db = some dep → (c.ctx price).overdue dep = true →
      c.drops dep.paymentHash)
    (hunpaid : ∀ o h, getOrder o.orderId db = some o → o.state = .verified →
      o.pendingClose = none → o.escrowHash = some h →
      (∃ r, db.holds.find h = some r ∧ (c.ctx price).overdue r = true) ∨
        expiring c.now (catchupWarmupSec ≤ c.now - startedAt) height o db → c.unpaid h) :
    Leads (LnMove c) db ((c.ctx price).clock startedAt height db) := by
  have since : ∀ {a b : LnDb}, Relation.ReflTransGen (LnMove c) a b → SinceTick db a →
      SinceTick db b :=
    fun h => h.keeps (P := SinceTick db) fun a b ⟨_, he⟩ ha => he.sinceTick hc ha
  -- the judgement about an order that waits for its escrow is that of the beginning
  have hverified : ∀ s o h, SinceTick db s → getOrder o.orderId s = some o → o.state = .verified →
      o.pendingClose = none → o.escrowHash = some h →
      (∃ r, s.holds.find h = some r ∧ (c.ctx price).overdue r = true) ∨
        expiring c.now (catchupWarmupSec ≤ c.now - startedAt) height o s → c.unpaid h := by
    intro s o h hsince ho hs hp hh hjudged
    obtain ⟨o₀, ho₀, hs₀, hp₀, hesc, hd⟩ := hsince.verified _ o ho hs hp
    refine hunpaid o₀ h (by rwa [getOrder_orderId ho₀]) hs₀ hp₀ (hesc.trans hh) ?_
    refine hjudged.imp (fun ⟨r, hr, hov⟩ => ?_) fun hexp => hsince.expiring hs hs₀ hesc hd hexp
    rcases hsince.rows h r hr with hr₀ | ⟨-, hcr, -⟩
    · exact ⟨r, hr₀, hov⟩
    · simp [LnCtx.overdue, hcr] at hov
  have loop : ∀ (states : List OrderState) (body : LnOrderRow → LnDb → Except Abort LnDb) {a : LnDb},
      SinceTick db a → (∀ o s, o.state ∈ states → getOrder o.orderId s = some o → SinceTick db s →
        Leads (LnEdge c o.orderId) s (body o s)) →
      Leads (LnMove c) a (forEach (ordersInStates states a) body a) := by
    intro states body a ha hbody
    refine (loop_leads LnOrderRow.orderId (J := fun o s => getOrder o.orderId s = some o ∧
      SinceTick db s) (pairwise_ordersInStates _ _) ?_
      (fun o ho => ⟨(mem_ordersInStates.mp ho).1, ha⟩)
      fun o ho s hs => hbody o s (mem_ordersInStates.mp ho).2 hs.1 hs.2).mono
        fun x y ⟨o, _, he⟩ => ⟨_, he⟩
    intro o id s s' hne he ⟨ho, hs⟩
    exact ⟨(he.getOrder_of_ne hne.symm).trans ho, he.sinceTick hc hs⟩
  unfold LnCtx.clock
  -- the drafts, each with the deposit it had
  have h₁ : Leads (fun a b => ∃ d ∈ allDrafts db, LnEdge c d.orderId a b) db
      (forEach (allDrafts db) (c.ctx price).clockDraft db) := by
    refine loop_leads LnDraftRow.orderId (J := fun d s => getDraft d.orderId s = some d ∧
      currentHold .lnCustomerDeposit d.orderId d.customer s =
        currentHold .lnCustomerDeposit d.orderId d.customer db) (pairwise_allDrafts db) ?_
      (fun d hd => ⟨mem_allDrafts.mp hd, rfl⟩) fun d hd s hs => ?_
    · intro d id s s' hne he ⟨hd, hdep⟩
      exact ⟨(he.getDraft_of_ne hne.symm).trans hd, (he.currentHold_of_ne hne.symm _ _).trans hdep⟩
    · refine clockDraft_leads hs.1 fun dep hdep hov => ?_
      exact hdraft d dep (mem_allDrafts.mp hd) (hs.2.symm.trans hdep) hov
  have hmove : ∀ {a b : LnDb}, Relation.ReflTransGen (fun a b => ∃ d ∈ allDrafts db,
      LnEdge c d.orderId a b) a b → Relation.ReflTransGen (LnMove c) a b :=
    fun h => Relation.ReflTransGen.mono (fun _ _ ⟨d, _, he⟩ => ⟨d.orderId, he⟩) _ _ h
  refine (h₁.mono fun _ _ ⟨d, _, he⟩ => ⟨d.orderId, he⟩).bind fun db₁ hdb₁ => ?_
  have hs₁ : SinceTick db db₁ := since (hmove (h₁ db₁ hdb₁)) (.refl db)
  -- a claimed order has no draft, so that its row and its deposit are as they were
  have hsame : ∀ o, getOrder o.orderId db₁ = some o → o.state = .claimed →
      getOrder o.orderId db = some o ∧
        LnCtx.sponsorDepositOf o db₁ = LnCtx.sponsorDepositOf o db := by
    intro o ho hs
    have hd := hno o.orderId (hs₁.claimed _ o ho hs)
    have hkept := (h₁ db₁ hdb₁).keeps (P := fun s => getOrder o.orderId s = getOrder o.orderId db ∧
      LnCtx.sponsorDepositOf o s = LnCtx.sponsorDepositOf o db) ?_ ⟨rfl, rfl⟩
    · exact ⟨hkept.1.symm.trans ho, hkept.2⟩
    · rintro a b ⟨d, hmem, he⟩ ⟨ha, hdep⟩
      have hne : o.orderId ≠ d.orderId := by
        intro heq
        rw [heq, mem_allDrafts.mp hmem] at hd
        cases hd
      exact ⟨(he.getOrder_of_ne hne).trans ha, (he.sponsorDepositOf_of_ne hne).trans hdep⟩
  have h₂ : Leads (LnMove c) db₁
      (forEach (ordersInStates [.claimed] db₁) (c.ctx price).clockClaim db₁) := by
    refine (loop_leads LnOrderRow.orderId (J := fun o s => getOrder o.orderId s = some o ∧
      SinceTick db s ∧ LnCtx.sponsorDepositOf o s = LnCtx.sponsorDepositOf o db₁)
      (pairwise_ordersInStates _ _) ?_ (fun o ho => ⟨(mem_ordersInStates.mp ho).1, hs₁, rfl⟩)
      fun o ho s hs => ?_).mono fun x y ⟨o, _, he⟩ => ⟨_, he⟩
    · intro o id s s' hne he ⟨ho, hs, hdep⟩
      exact ⟨(he.getOrder_of_ne hne.symm).trans ho, he.sinceTick hc hs,
        (he.sponsorDepositOf_of_ne hne.symm).trans hdep⟩
    · obtain ⟨ho₁, hstate⟩ := mem_ordersInStates.mp ho
      have hstate : o.state = .claimed := by simpa using hstate
      obtain ⟨ho₀, hdep₀⟩ := hsame o ho₁ hstate
      refine clockClaim_leads hs.1 hstate (fun haw dep hdep hov => ?_) hc.reverts
      refine hclaim o dep ho₀ ⟨haw.1, haw.2.1, ?_, haw.2.2.2⟩
        (hdep₀.symm.trans (hs.2.2.symm.trans hdep)) hov
      have hreq := haw.2.2.1
      rwa [LnCtx.sponsorDepositRequired, hs.2.1.settings] at hreq
  refine h₂.bind fun db₂ hdb₂ => ?_
  have hs₂ := since (h₂ db₂ hdb₂) hs₁
  have h₃ := loop [.verified] (c.ctx price).clockUnpaid hs₂ fun o s hs ho hsince =>
    clockUnpaid_leads ho (fun hp h r hh hr hov =>
      hverified s o h hsince ho (by simpa using hs) hp hh (.inl ⟨r, hr, hov⟩)) hc.begins
  refine h₃.bind fun db₃ hdb₃ => ?_
  have hs₃ := since (h₃ db₃ hdb₃) hs₂
  have h₄ := loop [.requested, .claimed, .verified, .escrowed, .invoiced]
    ((c.ctx price).clockExpiry (catchupWarmupSec ≤ c.now - startedAt) height) hs₃
    fun o s _ ho hsince => clockExpiry_leads ho (fun hv hp hexp h hh =>
      hverified s o h hsince ho hv hp hh (.inr (by simpa using hexp))) hc.begins
  refine h₄.bind fun db₄ hdb₄ => ?_
  exact loop [.remitted] (LnCtx.clockSafety height) (since (h₄ db₄ hdb₄) hs₃)
    fun o s hs ho _ => clockSafety_leads ho (by simpa using hs)

end LnPay
