/-
# Runs of the Lightning effects

What is known of a run of an effect at each of its awaits (`RunFact`) and of the
answer it has got (`AnswerFact`), whatever else has happened meanwhile:

* `turnFact_start` and `turnFact_resume`: one turn of a run leads to a fact of
  its next await, or to what the record of its outcome relies on (`DoneFact`,
  `RetryFact`, `DeadFact`),
* `RunFact.edge` and `RunFact.later`: the facts survive every edge of the other
  transactions and every step of the node.
-/
import LnPay.LnClose

namespace LnPay

variable {c : EdgeCtx} {id id' : OrderId} {db db' : LnDb} {env : LnEnv} {node node' : LnNode}

/-! ## Answers -/

/-- What the answer to a node call says, as long as no call is made. -/
def CallFact (node : LnNode) : NodeCall → NodeAnswer → Prop
  | .lookupInvoice h, .lookup l =>
    LookupFact node h l ∧ (Ended node h .settled → ∃ x ∈ l, x.state = .settled)
  | .addHoldInvoice h, .added bolt11 => bolt11 ≠ "" ∧ ∃ inv, node h = some inv
  | .settleInvoice h, .done => Ended node h .settled
  | .cancelInvoice h, .done => Ended node h .cancelled
  | _, _ => True

/-- The node has changed by steps of the payers and by itself only: no invoice is new, none has been
settled. -/
structure LnNode.Drifts (node node' : LnNode) : Prop where
  later : node.Later node'
  noNew : ∀ h, node h = none → node' h = none
  noSettle : ∀ h, Ended node' h .settled → Ended node h .settled

theorem LnNode.Drifts.refl (node : LnNode) : node.Drifts node :=
  ⟨.refl node, fun _ h => h, fun _ h => h⟩

/-- A change of one invoice to a state other than settled. -/
theorem LnNode.drifts_set {node : LnNode} {h : Hash} {inv inv' : NodeInvoice}
    (hinv : node h = some inv) (hl : node.Later (node.set h inv')) (hs : inv'.state ≠ .settled) :
    node.Drifts (node.set h inv') := by
  refine ⟨hl, fun h' hn => ?_, fun h' hend => ?_⟩
  · rwa [set_of_ne]
    rintro rfl
    rw [hinv] at hn
    cases hn
  · obtain ⟨i, hi, hset⟩ := hend
    by_cases hne : h' = h
    · subst hne
      rw [set_self] at hi
      obtain rfl := Option.some.inj hi
      exact absurd hset hs
    · rw [set_of_ne _ _ hne] at hi
      exact ⟨i, hi, hset⟩

theorem LnNode.drifts_accept {height : ℕ} {now : ℤ} {h : Hash}
    (ha : node.accept h height now = some node') : node.Drifts node' := by
  have hl := later_accept ha
  obtain ⟨inv, hinv, -, rfl⟩ := accept_spec ha
  exact drifts_set hinv hl (fun he => by cases he)

theorem LnNode.drifts_expire {h : Hash} (he : node.expire h = some node') : node.Drifts node' := by
  have hl := later_expire he
  obtain ⟨inv, hinv, -, rfl⟩ := expire_spec he
  exact drifts_set hinv hl (fun he => by cases he)

theorem CallFact.drift {call : NodeCall} {a : NodeAnswer} (h : CallFact node call a)
    (hd : node.Drifts node') : CallFact node' call a := by
  unfold CallFact at *
  split at h
  · rename_i hash l
    refine ⟨?_, fun hs => h.2 (hd.noSettle hash hs)⟩
    cases l with
    | none => exact hd.noNew hash h.1
    | some l => exact h.1.later hd.later
  · obtain ⟨hb, inv, hinv⟩ := h
    obtain ⟨inv', hinv', -⟩ := hd.later _ inv hinv
    exact ⟨hb, inv', hinv'⟩
  · exact h.later hd.later (hd.noNew _)
  · exact h.later hd.later (hd.noNew _)
  · trivial

/-- The node's answer is true when it comes. -/
theorem callFact_serve (node : LnNode) (fault : Fault) (bolt11 : String) (call : NodeCall) :
    CallFact (node.serve fault bolt11 call).1 call (node.serve fault bolt11 call).2 := by
  have hfailed : ∀ n : LnNode, CallFact n call .failed := fun n => by cases call <;> trivial
  cases hp : node.perform bolt11 call with
  | none => cases fault <;> simp [LnNode.serve, hp, hfailed]
  | some r =>
    cases fault with
    | lostRequest => simp [LnNode.serve, hfailed]
    | lostAnswer => simp [LnNode.serve, hp, hfailed]
    | none =>
      simp only [LnNode.serve, hp]
      cases call with
      | lookupInvoice h =>
        cases hp
        refine ⟨lookupFact_self node h, ?_⟩
        rintro ⟨inv, hinv, hs⟩
        have hinv : node h = some inv := hinv
        exact ⟨inv.toHoldLookup, by simp [LnNode.lookupInvoice, hinv], hs⟩
      | addHoldInvoice h =>
        simp only [LnNode.perform] at hp
        split at hp
        · cases hp
        · rename_i hb
          obtain ⟨n, hn, rfl⟩ := Option.map_eq_some_iff.mp hp
          obtain ⟨-, rfl⟩ := LnNode.addHoldInvoice_spec hn
          exact ⟨hb, _, LnNode.set_self _ _ _⟩
      | settleInvoice h =>
        have hend := ended_of_perform (f := .settled) hp
        obtain ⟨n, -, rfl⟩ := Option.map_eq_some_iff.mp hp
        exact hend
      | cancelInvoice h =>
        have hend := ended_of_perform (f := .cancelled) hp
        obtain ⟨n, -, rfl⟩ := Option.map_eq_some_iff.mp hp
        exact hend

/-- What the answer of a run says. -/
def AnswerFact (node : LnNode) (a : LnAwait) (ans : Option LnAnswer) : Prop :=
  ∀ call b, LnWorld.nodeCall a = some call → ans = some (.node b) → CallFact node call b

/-! ## Awaits -/

/-- The row under the hash of a captured one is a later version of it, and still being made if the
captured one was. -/
def Captured (db : LnDb) (inv : HoldRow) : Prop :=
  ∃ r, db.holds.find inv.paymentHash = some r ∧ inv.Later r ∧
    (inv.status = .creating → r.status = .creating)

/-- The order a run of `ln.close` has read, which is still closing by the same rule. -/
def Closing (db : LnDb) (order : LnOrderRow) (rule : CloseRule) : Prop :=
  ∃ o reason, getOrder order.orderId db = some o ∧ o.pendingClose = some reason ∧
    rule = reason.rule ∧ order.sponsor = o.sponsor ∧ order.escrowHash = o.escrowHash

/-- How far a close has come: the ends it has, the invoices it still has to see. -/
structure Progress (db : LnDb) (node : LnNode) (order : LnOrderRow) (rule : CloseRule)
    (finals : List (Hash × HoldFinal)) (todo : List (HoldRow × DisposeAction)) : Prop where
  ended : ∀ f ∈ finals, Ended node f.1 f.2
  known : ∀ f ∈ finals, ∃ r, db.holds.find f.1 = some r
  pending : ∀ t ∈ todo, (∃ r, db.holds.find t.1.paymentHash = some r) ∧
    (t.2 = .settle → MaySettle db order rule t.1.paymentHash)
  covered : ∀ h r, db.holds.find h = some r → r.orderId = order.orderId →
    r.purpose ∈ lnHoldPurposes → r.Final ∨ (∃ f ∈ finals, f.1 = h) ∨ ∃ t ∈ todo, t.1.paymentHash = h
  taken : rule.escrow = .settle → ∃ h, order.escrowHash = some h ∧ (h, .settled) ∈ finals

/-- The order a payout is for, and the invoice it is about to pay. -/
def PayoutOf (env : LnEnv) (db : LnDb) (id : OrderId) (bolt11 : String) (info : Bolt11Info) :
    Prop :=
  readBolt11 env bolt11 = some info ∧
    ∃ o, getOrder id db = some o ∧ o.payable ∧ o.payoutSat = some info.amountSat

/-- What is known of a run at an await. -/
def RunFact (env : LnEnv) (node : LnNode) (db : LnDb) (e : Effect LnEffect) : LnAwait → Prop
  | .hold (.createLookup inv) => e = .holdCreate inv.paymentHash ∧ Captured db inv
  | .hold (.createCancel inv) =>
    e = .holdCreate inv.paymentHash ∧ Captured db inv ∧ inv.status ≠ .creating
  | .hold (.createAdd inv) => e = .holdCreate inv.paymentHash ∧
    ∃ r, db.holds.find inv.paymentHash = some r ∧ r.status = .creating
  | .hold (.disposeLookup inv action) => e = .holdDispose inv.paymentHash action ∧
    (action = .settle → LateEscrow db inv.paymentHash)
  | .hold (.disposeCall inv final) => ∃ action, e = .holdDispose inv.paymentHash action ∧
    (final = .settled → action = .settle ∧ LateEscrow db inv.paymentHash)
  | .closeEscrowLookup order rule escrow => e = .own (.close order.orderId) ∧
    Closing db order rule ∧ order.escrowHash = some escrow.paymentHash ∧
      ∃ r, db.holds.find escrow.paymentHash = some r
  | .closeEscrowCall order rule escrow final => e = .own (.close order.orderId) ∧
    Closing db order rule ∧ order.escrowHash = some escrow.paymentHash ∧
      (∃ r, db.holds.find escrow.paymentHash = some r) ∧ (final = .settled ↔ rule.escrow = .settle)
  | .closeLookup finals inv want todo => ∃ order rule, e = .own (.close order.orderId) ∧
    Closing db order rule ∧ Progress db node order rule finals ((inv, want) :: todo)
  | .closeCall finals inv final todo => ∃ order rule want, e = .own (.close order.orderId) ∧
    Closing db order rule ∧ Progress db node order rule finals ((inv, want) :: todo) ∧
      (final = .settled → want = .settle)
  | .payoutTrack order bolt11 info | .payoutPay order bolt11 info =>
    e = .own (.payout order.orderId) ∧ PayoutOf env db order.orderId bolt11 info

/-! ## Outcomes -/

/-- What recording a finished run relies on. -/
def DoneFact (c : EdgeCtx) (db : LnDb) : Effect LnEffect → LnResult → Prop
  | .holdCreate h, .hold result => CreateFact c.node h result ∧
    (result = .created none → ∀ r, db.holds.find h = some r → r.status ≠ .creating)
  | .holdDispose h _, .hold result => ∀ f, result = .disposed f → Ended c.node h f
  | .own (.close id), .closed finals => CloseFact c.node db id finals ∧
    ∀ o, getOrder id db = some o → o.pendingClose ≠ none →
      ∀ h r, db.holds.find h = some r → r.orderId = id → r.purpose ∈ lnHoldPurposes →
        r.Final ∨ ∃ f ∈ finals, f.1 = h
  | .own (.payout id), .payout outcome => ∀ o, getOrder id db = some o → OutcomeFact c id o outcome
  | _, _ => False

/-- An error text that is none of the marks kept in `payout_error`. -/
def PlainError (error : String) : Prop :=
  error ≠ payoutInvoiceExpired ∧ isManualPayout (some error) = false

/-- What giving a run up relies on: only the close of an order whose escrow cannot be taken does. -/
def DeadFact (c : EdgeCtx) (db : LnDb) : Effect LnEffect → Prop
  | .own (.close id) => ∃ o reason, getOrder id db = some o ∧ o.pendingClose = some reason ∧
    reason.rule.escrow = .settle ∧ ∀ h, o.escrowHash = some h → ¬ Ended c.node h .settled
  | .own (.payout _) => False
  | _ => True

/-- What is known after a turn. -/
def TurnFact (c : EdgeCtx) (db : LnDb) (e : Effect LnEffect) : LnTurn → Prop
  | .await a => RunFact c.env c.node db e a
  | .done r => DoneFact c db e r
  | .retry error => PlainError error
  | .dead _ => DeadFact c db e

theorem NodeText.plain (t : NodeText) : PlainError t.text :=
  ⟨t.ne_expired, by simp [isManualPayout, t.ne_manualRequested, t.ne_manual]⟩

/-! ## One turn of a run -/

/-- The loop of a close goes on, or it is through. -/
theorem turnFact_closeLoop {order : LnOrderRow} {rule : CloseRule}
    {finals : List (Hash × HoldFinal)} {todo : List (HoldRow × DisposeAction)}
    (hc : Closing db order rule) (hp : Progress db c.node order rule finals todo) :
    TurnFact c db (.own (.close order.orderId)) (LnCtx.closeLoop finals todo) := by
  cases todo with
  | cons t todo => exact ⟨order, rule, rfl, hc, hp⟩
  | nil =>
    obtain ⟨o, reason, ho, hpc, rfl, hsp, hesc⟩ := hc
    refine ⟨⟨hp.ended, ?_⟩, ?_⟩
    · intro o' reason' ho' hpc' hset
      obtain rfl := Option.some.inj (ho.symm.trans ho')
      obtain rfl := Option.some.inj (hpc.symm.trans hpc')
      obtain ⟨h, hh, hmem⟩ := hp.taken hset
      obtain ⟨r, hr⟩ := hp.known _ hmem
      obtain rfl : r.paymentHash = h := KeyedTable.key_of_find hr
      exact ⟨r, hesc ▸ hh, hr, hmem⟩
    · intro o' ho' _ h r hr hid hpurpose
      rcases hp.covered h r hr hid hpurpose with hf | hf | ⟨t, ht, -⟩
      · exact .inl hf
      · exact .inr hf
      · cases ht

/-- What is left to do after the escrow. -/
theorem progress_closeTodo {order : LnOrderRow} {rule : CloseRule} {escrow : HoldRow}
    {f : HoldFinal} (hesc : order.escrowHash = some escrow.paymentHash)
    (hknown : ∃ r, db.holds.find escrow.paymentHash = some r)
    (hend : Ended c.node escrow.paymentHash f) (htaken : rule.escrow = .settle → f = .settled) :
    Progress db c.node order rule [(escrow.paymentHash, f)] (LnCtx.closeTodo order rule db) where
  ended := by simpa using hend
  known := by simpa using hknown
  pending t ht := ⟨⟨t.1, (mem_closeTodo ht).1⟩, (mem_closeTodo ht).2.2⟩
  covered := by
    intro h r hr hid hpurpose
    obtain rfl : r.paymentHash = h := KeyedTable.key_of_find hr
    rcases covered_closeTodo rule hr hid hpurpose with hf | hf | ⟨want, hmem⟩
    · exact .inl hf
    · exact .inr (.inl ⟨_, List.mem_singleton_self _, Option.some.inj (hesc.symm.trans hf)⟩)
    · exact .inr (.inr ⟨_, hmem, rfl⟩)
  taken hset := ⟨_, hesc, by rw [htaken hset]; exact List.mem_singleton_self _⟩

/-- An order that is due has an invoice over exactly its payout, so the payout finds its way. -/
theorem payoutStart_of_payable (ctx : LnCtx) {o : LnOrderRow} (ho : getOrder id db = some o)
    (hinv : OrderInv ctx.env db o) (hpay : o.payable) (hd : o.disbursed = false) :
    ∃ bolt11 info, o.sponsorInvoice = some bolt11 ∧ readBolt11 ctx.env bolt11 = some info ∧
      o.payoutSat = some info.amountSat ∧
      ctx.payoutStart id db = .await (.payoutTrack o bolt11 info) := by
  obtain ⟨bolt11, hb, hne, info, hread, hsat, hpos⟩ := hinv.invoice (hpay.elim
    (fun h => .inr (.inr (.inl h))) fun h => .inr (.inr (.inr h)))
  refine ⟨bolt11, info, hb, hread, hsat, ?_⟩
  have hfilter : o.sponsorInvoice.filter (· ≠ "") = some bolt11 := by simp [hb, hne]
  have hsat' : o.payoutSat.filter (· ≠ 0) = some info.amountSat := by
    simp [hsat, Nat.pos_iff_ne_zero.mp hpos]
  have hexact : isPayoutAmountExact (some info.amountSat) info.amountSat = true :=
    isPayoutAmountExact_iff.mpr ⟨rfl, hpos⟩
  have hstate : ¬ (o.state ≠ .paid ∧ o.state ≠ .sponsorWins) := by
    unfold LnOrderRow.payable at hpay
    tauto
  unfold LnCtx.payoutStart
  rw [ho]
  simp only [hd, hstate, if_false, hfilter, hsat', hread, hexact, if_true, Bool.false_eq_true]

/-- **A run begins.** -/
theorem turnFact_start {e : Effect LnEffect} {price : Option ℚ} (hinv : LnInv c.env c.node db)
    (he : e ∈ db.effects) : TurnFact c db e ((c.ctx price).startRun e db) := by
  cases e with
  | holdCreate h =>
    change TurnFact c db _ (holdTurn (createStart h db))
    unfold createStart
    split
    · trivial
    · rename_i inv hf
      obtain rfl := KeyedTable.key_of_find hf
      exact ⟨rfl, inv, hf, .refl inv, fun h => h⟩
  | holdDispose h a =>
    change TurnFact c db _ (holdTurn (disposeStart h a db))
    unfold disposeStart
    split
    · trivial
    · rename_i inv hf
      obtain rfl := KeyedTable.key_of_find hf
      refine ⟨rfl, ?_⟩
      rintro rfl
      exact hinv.lateSettle _ he
  | own e =>
    cases e with
    | close id =>
      change TurnFact c db _ (LnCtx.closeStart id db)
      unfold LnCtx.closeStart
      split
      · rename_i hn
        exact ⟨⟨(fun f hf => by cases hf), fun o _ ho => by rw [hn] at ho; cases ho⟩,
          fun o ho => by rw [hn] at ho; cases ho⟩
      · rename_i order ho
        split
        · rename_i hpc
          refine ⟨⟨(fun f hf => by cases hf), fun o reason ho' hr => ?_⟩, fun o ho' hne => ?_⟩
          · obtain rfl := Option.some.inj (ho.symm.trans ho')
            rw [hpc] at hr
            cases hr
          · obtain rfl := Option.some.inj (ho.symm.trans ho')
            exact absurd hpc hne
        · rename_i reason hpc
          obtain rfl := getOrder_orderId ho
          have hclosing : Closing db order reason.rule := ⟨order, reason, ho, hpc, rfl, rfl, rfl⟩
          split
          · rename_i escrow hesc
            obtain ⟨h, hh, hf⟩ := Option.bind_eq_some_iff.mp hesc
            obtain rfl := KeyedTable.key_of_find hf
            exact ⟨rfl, hclosing, hh, escrow, hf⟩
          · rename_i hesc
            have hnone : order.escrowHash = none := by
              rcases (hinv.order _ order ho).amounts with h | ⟨p, r, hr⟩
              · exact h.2
              · rw [hr.hash, Option.bind_some, hr.found] at hesc
                cases hesc
            split
            · rename_i hset
              exact ⟨order, reason, ho, hpc, hset, fun h hh => by rw [hnone] at hh; cases hh⟩
            · rename_i hset
              refine turnFact_closeLoop hclosing ⟨(fun f hf => by cases hf), (fun f hf => by cases hf),
                fun t ht => ⟨⟨t.1, (mem_closeTodo ht).1⟩, (mem_closeTodo ht).2.2⟩, ?_,
                fun h => absurd h hset⟩
              intro h r hr hid hpurpose
              obtain rfl : r.paymentHash = h := KeyedTable.key_of_find hr
              rcases covered_closeTodo reason.rule hr hid hpurpose with hf | hf | ⟨want, hmem⟩
              · exact .inl hf
              · rw [hnone] at hf
                cases hf
              · exact .inr (.inr ⟨_, hmem, rfl⟩)
    | payout id =>
      change TurnFact c db _ ((c.ctx price).payoutStart id db)
      cases ho : getOrder id db with
      | none =>
        simp only [LnCtx.payoutStart, ho]
        exact fun o ho' => by rw [ho] at ho'; cases ho'
      | some o =>
        by_cases hd : o.disbursed = true
        · simp only [LnCtx.payoutStart, ho, hd, if_true]
          exact fun _ _ => trivial
        · by_cases hpay : o.payable
          · obtain ⟨bolt11, info, -, hread, hsat, hstart⟩ := payoutStart_of_payable
              (c.ctx price) ho (hinv.order id o ho) hpay (by simpa using hd)
            rw [hstart]
            obtain rfl := getOrder_orderId ho
            exact ⟨rfl, hread, o, ho, hpay, hsat⟩
          · have hstate : o.state ≠ .paid ∧ o.state ≠ .sponsorWins := not_or.mp hpay
            simp only [LnCtx.payoutStart, ho, hd, hstate, if_true, if_false, ne_eq, not_false_eq_true,
              and_self, Bool.false_eq_true]
            exact fun _ _ => trivial

theorem plain_lnd : PlainError "LND" := ⟨by decide, by decide⟩

theorem plain_inFlight : PlainError payoutInFlight := ⟨by decide, by decide⟩

theorem plain_preimage : PlainError "프리이미지가 해시와 맞지 않는다" := ⟨by decide, by decide⟩

theorem HoldStatus.ne_creating_of_mayBecome {s t : HoldStatus} (h : s.mayBecome t)
    (hs : s ≠ .creating) : t ≠ .creating := by
  rcases h with rfl | h
  · exact hs
  · rintro rfl
    exact absurd h (Nat.not_lt_zero _)

/-- The run of `hold.create` after the lookup. -/
theorem turnFact_createLooked {now : ℤ} {inv : HoldRow} {l : Option HoldLookup}
    (hnamed : ∀ h inv, c.node h = some inv → inv.bolt11 ≠ "") (hcap : Captured db inv)
    (hans : CallFact c.node (.lookupInvoice inv.paymentHash) (.lookup l)) :
    TurnFact c db (.holdCreate inv.paymentHash) (holdTurn (createLooked now inv l)) := by
  obtain ⟨r, hr, hlater, hcr⟩ := hcap
  have hdone : inv.status ≠ .creating →
      TurnFact c db (.holdCreate inv.paymentHash) (.done (.hold (.created none))) := by
    refine fun hne => ⟨trivial, fun _ r' hr' => ?_⟩
    obtain rfl := Option.some.inj (hr.symm.trans hr')
    exact HoldStatus.ne_creating_of_mayBecome hlater.status hne
  unfold createLooked
  split
  · rename_i hne
    split
    · split
      · exact ⟨rfl, ⟨r, hr, hlater, hcr⟩, hne⟩
      · exact hdone hne
    · exact hdone hne
  · rename_i hst
    split
    · rename_i l
      obtain ⟨inv', hinv', -, hb⟩ := hans.1
      exact ⟨⟨hb ▸ hnamed _ _ hinv', inv', hinv'⟩, fun h => by cases h⟩
    · split
      · exact ⟨hans.1, fun h => by cases h⟩
      · exact ⟨rfl, r, hr, hcr (not_not.mp hst)⟩

/-- A hold effect goes on with the node's answer. -/
theorem turnFact_hold {e : Effect LnEffect} {a : HoldAwait} {b : NodeAnswer} {keys : KeyDerivation}
    {now : ℤ} (hnamed : ∀ h inv, c.node h = some inv → inv.bolt11 ≠ "")
    (hrun : RunFact c.env c.node db e (.hold a)) (hans : CallFact c.node a.call b) :
    TurnFact c db e (holdTurn (a.resume keys now b)) := by
  have hlnd : TurnFact c db e (holdTurn (.retry "LND")) := plain_lnd
  cases a with
  | createLookup inv =>
    cases b with
    | lookup l =>
      obtain ⟨rfl, hcap⟩ := hrun
      exact turnFact_createLooked hnamed hcap hans
    | _ => exact hlnd
  | createCancel inv =>
    cases b with
    | done =>
      obtain ⟨rfl, ⟨r, hr, hlater, -⟩, hne⟩ := hrun
      refine ⟨trivial, fun _ r' hr' => ?_⟩
      obtain rfl := Option.some.inj (hr.symm.trans hr')
      exact HoldStatus.ne_creating_of_mayBecome hlater.status hne
    | _ => exact hlnd
  | createAdd inv =>
    cases b with
    | added bolt11 =>
      obtain ⟨rfl, -⟩ := hrun
      exact ⟨hans, fun h => by cases h⟩
    | _ => exact hlnd
  | disposeLookup inv action =>
    cases b with
    | lookup l =>
      obtain ⟨rfl, hlate⟩ := hrun
      change TurnFact c db _ (holdTurn (settleTurn keys inv (settleOrCancel action l)))
      cases hs : settleOrCancel action l with
      | final f =>
        rintro _ ⟨⟩
        exact ended_of_settleOrCancel hans.1 hs
      | call f =>
        change TurnFact c db _ (holdTurn (if _ then _ else _))
        split
        · exact plain_preimage
        · refine ⟨action, rfl, ?_⟩
          rintro rfl
          exact ⟨settle_wanted hs, hlate (settle_wanted hs)⟩
    | _ => exact hlnd
  | disposeCall inv final =>
    cases b with
    | done =>
      obtain ⟨action, rfl, -⟩ := hrun
      rintro _ ⟨⟩
      cases final <;> exact hans
    | _ => exact hlnd

/-- The invoice at the head of the list has ended. -/
theorem Progress.advance {order : LnOrderRow} {rule : CloseRule} {finals : List (Hash × HoldFinal)}
    {inv : HoldRow} {want : DisposeAction} {todo : List (HoldRow × DisposeAction)} {f : HoldFinal}
    (hp : Progress db node order rule finals ((inv, want) :: todo))
    (hend : Ended node inv.paymentHash f) :
    Progress db node order rule (finals ++ [(inv.paymentHash, f)]) todo where
  ended := by
    intro g hg
    rcases List.mem_append.mp hg with hg | hg
    · exact hp.ended g hg
    · obtain rfl := List.mem_singleton.mp hg
      exact hend
  known := by
    intro g hg
    rcases List.mem_append.mp hg with hg | hg
    · exact hp.known g hg
    · obtain rfl := List.mem_singleton.mp hg
      exact (hp.pending _ List.mem_cons_self).1
  pending t ht := hp.pending t (List.mem_cons_of_mem _ ht)
  covered := by
    intro h r hr hid hpurpose
    rcases hp.covered h r hr hid hpurpose with hf | ⟨g, hg, hh⟩ | ⟨t, ht, hh⟩
    · exact .inl hf
    · exact .inr (.inl ⟨g, List.mem_append_left _ hg, hh⟩)
    · rcases List.mem_cons.mp ht with rfl | ht
      · exact .inr (.inl ⟨_, List.mem_append_right _ (List.mem_singleton_self _), hh⟩)
      · exact .inr (.inr ⟨t, ht, hh⟩)
  taken hset := by
    obtain ⟨h, hh, hmem⟩ := hp.taken hset
    exact ⟨h, hh, List.mem_append_left _ hmem⟩

/-- What `settleOrCancel` makes of an escrow that can be taken. -/
theorem settleOrCancel_settle {l : Option HoldLookup}
    (h : ∃ x ∈ l, x.state = .accepted ∨ x.state = .settled) :
    settleOrCancel .settle l = .final .settled ∨ settleOrCancel .settle l = .call .settled := by
  obtain ⟨x, rfl, hx | hx⟩ := h
  · exact .inr (by simp [settleOrCancel, hx])
  · exact .inl (by simp [settleOrCancel, hx])

/-- The close goes on after the lookup of the escrow. -/
theorem turnFact_closeEscrowLooked {ctx : LnCtx} {order : LnOrderRow} {rule : CloseRule}
    {escrow : HoldRow} {l : Option HoldLookup} (hc : Closing db order rule)
    (hesc : order.escrowHash = some escrow.paymentHash)
    (hknown : ∃ r, db.holds.find escrow.paymentHash = some r)
    (hans : CallFact c.node (.lookupInvoice escrow.paymentHash) (.lookup l)) :
    TurnFact c db (.own (.close order.orderId)) (ctx.closeEscrowLooked order rule escrow l db) := by
  unfold LnCtx.closeEscrowLooked
  split
  · rename_i hdead
    obtain ⟨o, reason, ho, hpc, rfl, -, heq⟩ := hc
    refine ⟨o, reason, ho, hpc, hdead.1, fun h hh hend => hdead.2 ?_⟩
    obtain rfl := Option.some.inj (hesc.symm.trans (heq.trans hh))
    obtain ⟨x, hx, hs⟩ := hans.2 hend
    exact ⟨x, hx, .inr hs⟩
  · rename_i halive
    have htake : rule.escrow = .settle → settleOrCancel rule.escrow l = .final .settled ∨
        settleOrCancel rule.escrow l = .call .settled := by
      intro hset
      rw [hset]
      exact settleOrCancel_settle (not_not.mp fun h => halive ⟨hset, h⟩)
    cases hs : settleOrCancel rule.escrow l with
    | final f =>
      refine turnFact_closeLoop hc (progress_closeTodo hesc hknown
        (ended_of_settleOrCancel hans.1 hs) fun hset => ?_)
      rcases htake hset with h | h <;> rw [hs] at h <;> cases h
      rfl
    | call f =>
      change TurnFact c db _ (if _ then _ else _)
      split
      · exact plain_preimage
      · refine ⟨rfl, hc, hesc, hknown, ?_, fun hset => ?_⟩
        · rintro rfl
          exact settle_wanted hs
        · rcases htake hset with h | h <;> rw [hs] at h <;> cases h
          rfl

/-- The close goes on after the lookup of another invoice. -/
theorem turnFact_closeLooked {ctx : LnCtx} {order : LnOrderRow} {rule : CloseRule}
    {finals : List (Hash × HoldFinal)} {inv : HoldRow} {want : DisposeAction}
    {todo : List (HoldRow × DisposeAction)} {l : Option HoldLookup} (hc : Closing db order rule)
    (hp : Progress db c.node order rule finals ((inv, want) :: todo))
    (hans : CallFact c.node (.lookupInvoice inv.paymentHash) (.lookup l)) :
    TurnFact c db (.own (.close order.orderId)) (ctx.closeLooked finals inv want todo l) := by
  unfold LnCtx.closeLooked
  cases hs : settleOrCancel want l with
  | final f => exact turnFact_closeLoop hc (hp.advance (ended_of_settleOrCancel hans.1 hs))
  | call f =>
    change TurnFact c db _ (if _ then _ else _)
    split
    · exact plain_preimage
    · refine ⟨order, rule, want, rfl, hc, hp, ?_⟩
      rintro rfl
      exact settle_wanted hs

theorem ended_of_callFact {h : Hash} {f : HoldFinal} (hans : CallFact node (f.call h) .done) :
    Ended node h f := by
  cases f <;> exact hans

/-- The payout goes on after tracking; `hidle` is what an expired invoice says about the payments. -/
theorem turnFact_payoutTracked {ctx : LnCtx} {order : LnOrderRow} {bolt11 : String}
    {info : Bolt11Info} {status : Option PayStatus} (hnow : ctx.now = c.now)
    (hrun : PayoutOf c.env db order.orderId bolt11 info)
    (hidle : (status = none ∨ status = some .failed) → info.expiresAt ≤ c.now + 30 →
      ∀ o, getOrder order.orderId db = some o → o.sponsorInvoice = some bolt11 →
        c.idle order.orderId) :
    TurnFact c db (.own (.payout order.orderId))
      (ctx.payoutTracked order bolt11 info db status) := by
  obtain ⟨hread, o, ho, hpay, hsat⟩ := hrun
  have hrest : (status = none ∨ status = some .failed) →
      TurnFact c db (.own (.payout order.orderId))
        (if isManualPayout ((getOrder order.orderId db).bind LnOrderRow.payoutError) then
          .done (.payout (.manual bolt11))
        else if info.expiresAt ≤ ctx.now + 30 then .done (.payout (.expired bolt11))
        else .await (.payoutPay order bolt11 info)) := by
    intro hst
    split
    · intro o' ho'
      obtain rfl := Option.some.inj (ho.symm.trans ho')
      exact hpay
    · split
      · rename_i hexp
        rw [hnow] at hexp
        intro o' ho' hb
        obtain rfl := Option.some.inj (ho.symm.trans ho')
        exact ⟨hpay, hidle hst hexp o ho hb, info, hread, hexp⟩
      · exact ⟨rfl, hread, o, ho, hpay, hsat⟩
  unfold LnCtx.payoutTracked
  split
  · exact fun _ _ => trivial
  · exact plain_inFlight
  · rename_i h₁ h₂
    refine hrest ?_
    cases status with
    | none => exact .inl rfl
    | some s =>
      cases s with
      | succeeded => exact absurd rfl h₁
      | inFlight => exact absurd rfl h₂
      | failed => exact .inr rfl

/-- **A run goes on.** -/
theorem turnFact_resume {e : Effect LnEffect} {a : LnAwait} {ans : LnAnswer} {price : Option ℚ}
    (hnamed : ∀ h inv, c.node h = some inv → inv.bolt11 ≠ "")
    (hrun : RunFact c.env c.node db e a) (hans : AnswerFact c.node a (some ans))
    (hidle : ∀ order bolt11 info status, a = .payoutTrack order bolt11 info →
      ans = .tracked status → (status = none ∨ status = some .failed) →
      info.expiresAt ≤ c.now + 30 → ∀ o, getOrder order.orderId db = some o →
        o.sponsorInvoice = some bolt11 → c.idle order.orderId) :
    TurnFact c db e ((c.ctx price).resumeRun a ans db) := by
  have hlnd : TurnFact c db e (.retry "LND") := plain_lnd
  cases ans with
  | threw t => cases a <;> exact t.plain
  | node b =>
    cases a with
    | hold a => exact turnFact_hold hnamed hrun (hans _ b rfl rfl)
    | closeEscrowLookup order rule escrow =>
      cases b with
      | lookup l =>
        obtain ⟨rfl, hc, hesc, hknown⟩ := hrun
        exact turnFact_closeEscrowLooked hc hesc hknown (hans _ _ rfl rfl)
      | _ => exact hlnd
    | closeEscrowCall order rule escrow final =>
      cases b with
      | done =>
        obtain ⟨rfl, hc, hesc, hknown, hiff⟩ := hrun
        exact turnFact_closeLoop hc (progress_closeTodo hesc hknown
          (ended_of_callFact (hans _ _ rfl rfl)) hiff.mpr)
      | _ => exact hlnd
    | closeLookup finals inv want todo =>
      cases b with
      | lookup l =>
        obtain ⟨order, rule, rfl, hc, hp⟩ := hrun
        exact turnFact_closeLooked hc hp (hans _ _ rfl rfl)
      | _ => exact hlnd
    | closeCall finals inv final todo =>
      cases b with
      | done =>
        obtain ⟨order, rule, want, rfl, hc, hp, -⟩ := hrun
        exact turnFact_closeLoop hc (hp.advance (ended_of_callFact (hans _ _ rfl rfl)))
      | _ => exact hlnd
    | _ => exact hlnd
  | tracked status =>
    cases a with
    | payoutTrack order bolt11 info =>
      obtain ⟨rfl, hpay⟩ := hrun
      exact turnFact_payoutTracked rfl hpay (hidle order bolt11 info status rfl rfl)
    | _ => exact hlnd
  | paid status reason =>
    cases a with
    | payoutPay order bolt11 info =>
      obtain ⟨rfl, -⟩ := hrun
      cases status with
      | succeeded => exact fun _ _ => trivial
      | inFlight => exact plain_inFlight
      | failed =>
        cases reason with
        | none => exact ⟨by decide, by decide⟩
        | some t => exact t.plain
    | _ => exact hlnd

/-! ## What happens meanwhile -/

/-- The context of a transaction that is not the end of a run: an invoice in the making is left
alone, no close comes to its end. -/
structure EdgeCtx.Quiet (c : EdgeCtx) : Prop where
  creating : ∀ r r', r.status = .creating → ¬ c.touch r r'
  closes : ∀ id, ¬ c.closes id

section Meanwhile

variable (hq : c.Quiet)
include hq

theorem LnEdge.creating_kept (he : LnEdge c id db db') {h : Hash} {r : HoldRow}
    (hr : db.holds.find h = some r) (hs : r.status = .creating) :
    db'.holds.find h = some r := by
  obtain ⟨r', hr', -⟩ := he.find_later hr
  rcases he.find_cases hr' with h₁ | ⟨h₁, -⟩ | ⟨r₁, h₁, -, ht, -⟩
  · rw [hr', ← h₁, hr]
  · rw [hr] at h₁
    cases h₁
  · obtain rfl := Option.some.inj (hr.symm.trans h₁)
    exact absurd ht (hq.creating _ _ hs)

theorem Captured.move {inv : HoldRow} (h : Captured db inv) (he : LnEdge c id db db') :
    Captured db' inv := by
  obtain ⟨r, hr, hlater, hcr⟩ := h
  obtain ⟨r', hr', hlater'⟩ := he.find_later hr
  refine ⟨r', hr', hlater.trans hlater', fun hs => ?_⟩
  have := he.creating_kept hq hr (hcr hs)
  obtain rfl := Option.some.inj (this.symm.trans hr')
  exact hcr hs

/-- A closing order stays what it is to its close. -/
theorem OrderNext.closing {o o' : LnOrderRow} {reason : LnCloseReason}
    (hn : OrderNext c db o o') (hpc : o.pendingClose = some reason) :
    o'.pendingClose = some reason ∧ o'.sponsor = o.sponsor ∧ o'.escrowHash = o.escrowHash := by
  have hnone : o.pendingClose = none → False := fun h => by rw [h] at hpc; cases hpc
  cases hn with
  | same => exact ⟨hpc, rfl, rfl⟩
  | close _ hp => exact (hnone hp).elim
  | step p hs =>
    cases hs with
    | claim _ _ hp => exact (hnone hp).elim
    | revert _ hp => exact (hnone hp).elim
    | approve _ _ _ hp => exact (hnone hp).elim
    | unapprove _ ht =>
      obtain ⟨r, r', hs, ht⟩ := ht
      exact absurd ht (hq.creating r r' hs)
    | abandon _ _ _ hend => exact absurd hend (hq.closes _)
    | finish _ _ hend => exact absurd hend (hq.closes _)
    | _ => exact ⟨hpc, rfl, rfl⟩

theorem Closing.move {order : LnOrderRow} {rule : CloseRule} (h : Closing db order rule)
    (he : LnEdge c id db db') : Closing db' order rule := by
  obtain ⟨o, reason, ho, hpc, hrule, hsp, hesc⟩ := h
  obtain ⟨o', ho', hn⟩ := he.order_next ho
  obtain ⟨hpc', hsp', hesc'⟩ := hn.closing hq hpc
  exact ⟨o', reason, ho', hpc', hrule, hsp.trans hsp'.symm, hesc.trans hesc'.symm⟩

omit hq in
theorem MaySettle.mono {order : LnOrderRow} {rule : CloseRule} {h : Hash}
    (hm : MaySettle db order rule h) (he : LnEdge c id db db') : MaySettle db' order rule h := by
  refine hm.imp_right fun ⟨r, hr, hid, hp⟩ => ?_
  obtain ⟨r', hr', hl⟩ := he.find_later hr
  exact ⟨r', hr', hl.orderId.trans hid, by rwa [hl.purpose, hl.party]⟩

omit hq in
/-- Nothing is planned for an order that is closing. -/
theorem Closing.not_plannable {env : LnEnv} {order : LnOrderRow} {rule : CloseRule} {p : HoldPlan}
    (h : Closing db order rule) (hinv : LnInv env node db) (hid : p.orderId = order.orderId) :
    ¬ Plannable db p := by
  obtain ⟨o, reason, ho, hpc, -⟩ := h
  rintro (⟨-, d, hd, -⟩ | ⟨o', ho', -, hn, -⟩)
  · rw [hid, hinv.noDraft _ (by simp [ho])] at hd
    cases hd
  · rw [hid, ho] at ho'
    obtain rfl := Option.some.inj ho'
    rw [hpc] at hn
    cases hn

omit hq in
theorem Progress.move {env : LnEnv} {order : LnOrderRow} {rule : CloseRule}
    {finals : List (Hash × HoldFinal)} {todo : List (HoldRow × DisposeAction)}
    (hp : Progress db node order rule finals todo) (hinv : LnInv env node db)
    (hc : Closing db order rule) (he : LnEdge c id db db') :
    Progress db' node order rule finals todo where
  ended := hp.ended
  known f hf := by
    obtain ⟨r, hr⟩ := hp.known f hf
    obtain ⟨r', hr', -⟩ := he.find_later hr
    exact ⟨r', hr'⟩
  pending t ht := by
    obtain ⟨⟨r, hr⟩, hm⟩ := hp.pending t ht
    obtain ⟨r', hr', -⟩ := he.find_later hr
    exact ⟨⟨r', hr'⟩, fun hs => (hm hs).mono he⟩
  covered h r' hr' hid hpurpose := by
    rcases he.find_cases hr' with hr | ⟨-, p, attempt, rfl, -, hplan | hother⟩ | ⟨r, hr, hl, -⟩
    · exact hp.covered h r' hr hid hpurpose
    · exact absurd hplan (hc.not_plannable hinv hid)
    · exact absurd hpurpose hother
    · refine (hp.covered h r hr (hl.orderId ▸ hid) (hl.purpose ▸ hpurpose)).imp_left fun hf => ?_
      exact hf.later hl
  taken := hp.taken

omit hq in
/-- An order that is due stays due for the same sum. -/
theorem OrderNext.payable {o o' : LnOrderRow} (hn : OrderNext c db o o')
    (h : OrderInv c.env db o) (hpay : o.payable) :
    o'.payable ∧ o'.payoutSat = o.payoutSat ∧ o'.escrowHash = o.escrowHash := by
  have hstate : ∀ {s : OrderState}, o.state = s → s = .paid ∨ s = .sponsorWins := fun hs => hs ▸ hpay
  cases hn with
  | same => exact ⟨hpay, rfl, rfl⟩
  | close => exact ⟨hpay, rfl, rfl⟩
  | step p hs =>
    cases hs with
    | claim _ hs => exact absurd (hstate hs) (by simp)
    | revert hs => exact absurd (hstate hs) (by simp)
    | approve _ _ hs => exact absurd (hstate hs) (by simp)
    | verify _ _ hs => exact absurd (hstate hs) (by simp)
    | unapprove hs => exact absurd (hstate hs) (by simp)
    | escrowed _ hs => exact absurd (hstate hs) (by simp)
    | firstInvoice _ hs => exact absurd (hstate hs) (by simp)
    | remit hs => exact absurd (hstate hs) (by simp)
    | finish reason hp =>
      have ht := h.closing reason hp
      rcases hpay with hs | hs <;> rw [hs] at ht <;> cases reason <;> cases ht
    | _ => exact ⟨hpay, rfl, rfl⟩

omit hq in
theorem PayoutOf.move {bolt11 : String} {info : Bolt11Info}
    (h : PayoutOf c.env db id' bolt11 info) (hinv : LnInv c.env c.node db)
    (he : LnEdge c id db db') : PayoutOf c.env db' id' bolt11 info := by
  obtain ⟨hread, o, ho, hpay, hsat⟩ := h
  obtain ⟨o', ho', hn⟩ := he.order_next ho
  obtain ⟨hpay', hsat', -⟩ := hn.payable (hinv.order id' o ho) hpay
  exact ⟨hread, o', ho', hpay', hsat'.trans hsat⟩

/-- **Other transactions leave a run what it knows.** -/
theorem RunFact.edge {e : Effect LnEffect} {a : LnAwait} (h : RunFact c.env c.node db e a)
    (hinv : LnInv c.env c.node db) (he : LnEdge c id db db') : RunFact c.env c.node db' e a := by
  have hknown : ∀ h, (∃ r, db.holds.find h = some r) → ∃ r, db'.holds.find h = some r := by
    rintro h ⟨r, hr⟩
    obtain ⟨r', hr', -⟩ := he.find_later hr
    exact ⟨r', hr'⟩
  cases a with
  | hold a =>
    cases a with
    | createLookup inv => exact ⟨h.1, h.2.move hq he⟩
    | createCancel inv => exact ⟨h.1, h.2.1.move hq he, h.2.2⟩
    | createAdd inv =>
      obtain ⟨he', r, hr, hs⟩ := h
      exact ⟨he', r, he.creating_kept hq hr hs, hs⟩
    | disposeLookup inv action => exact ⟨h.1, fun hs => he.lateEscrow hinv.order (h.2 hs)⟩
    | disposeCall inv final =>
      obtain ⟨action, he', hf⟩ := h
      exact ⟨action, he', fun hs => (hf hs).imp_right (he.lateEscrow hinv.order)⟩
  | closeEscrowLookup order rule escrow =>
    exact ⟨h.1, h.2.1.move hq he, h.2.2.1, hknown _ h.2.2.2⟩
  | closeEscrowCall order rule escrow final =>
    exact ⟨h.1, h.2.1.move hq he, h.2.2.1, hknown _ h.2.2.2.1, h.2.2.2.2⟩
  | closeLookup finals inv want todo =>
    obtain ⟨order, rule, he', hc, hp⟩ := h
    exact ⟨order, rule, he', hc.move hq he, hp.move hinv hc he⟩
  | closeCall finals inv final todo =>
    obtain ⟨order, rule, want, he', hc, hp, hw⟩ := h
    exact ⟨order, rule, want, he', hc.move hq he, hp.move hinv hc he, hw⟩
  | payoutTrack order bolt11 info => exact ⟨h.1, h.2.move hinv he⟩
  | payoutPay order bolt11 info => exact ⟨h.1, h.2.move hinv he⟩

end Meanwhile

/-- The node moves on without a new invoice, except for one that the run itself asks for. -/
theorem RunFact.later {e : Effect LnEffect} {a : LnAwait} (h : RunFact env node db e a)
    (hl : node.Later node')
    (hnew : ∀ h, LnWorld.nodeCall a ≠ some (.addHoldInvoice h) → node h = none → node' h = none) :
    RunFact env node' db e a := by
  have hended : ∀ {order : LnOrderRow} {rule : CloseRule} {finals : List (Hash × HoldFinal)}
      {todo : List (HoldRow × DisposeAction)},
      (∀ h, LnWorld.nodeCall a ≠ some (.addHoldInvoice h)) →
      Progress db node order rule finals todo → Progress db node' order rule finals todo :=
    fun hne hp => ⟨fun f hf => (hp.ended f hf).later hl (hnew f.1 (hne f.1)), hp.known, hp.pending,
      hp.covered, hp.taken⟩
  cases a with
  | hold a => cases a <;> exact h
  | closeLookup finals inv want todo =>
    obtain ⟨order, rule, he, hc, hp⟩ := h
    exact ⟨order, rule, he, hc, hended (fun _ hn => by cases hn) hp⟩
  | closeCall finals inv final todo =>
    obtain ⟨order, rule, want, he, hc, hp, hw⟩ := h
    refine ⟨order, rule, want, he, hc, hended (fun _ hn => ?_) hp, hw⟩
    cases final <;> cases hn
  | _ => exact h

end LnPay
