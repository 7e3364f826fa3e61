/-
# Closing by the rule

What the close of an order has done when it comes to its end, whatever crashes
and retries lie behind it.

`CallLog` reads the log of the calls the node has carried out: an invoice is
settled only by such a call; one made outside a close is of a late escrow; one
made by a close is allowed by the rule of a reason that the order is still
closing for, with its escrow taken first.  `close_settles_by_rule` is the result.
-/
import LnPay.LnSound

namespace LnPay

variable {env : LnEnv} {w w' : LnWorld} {i : LnInput} {id id' : OrderId} {c : EdgeCtx}
  {db db' : LnDb} {node node' : LnNode} {calls : List (Effect LnEffect × NodeCall)}

/-! ## Settled on the node -/

/-- A settled invoice stays settled. -/
theorem Ended.settled_later {h : Hash} (he : Ended node h .settled) (hl : node.Later node') :
    Ended node' h .settled := by
  refine he.later hl fun hn => ?_
  obtain ⟨inv, hinv, -⟩ := he
  rw [hn] at hinv
  cases hinv

/-- A change of one invoice settles no other one. -/
theorem LnNode.settled_of_set {h h' : Hash} {inv : NodeInvoice}
    (he : Ended (node.set h' inv) h .settled) :
    Ended node h .settled ∨ (h = h' ∧ inv.state = .settled) := by
  obtain ⟨i, hi, hs⟩ := he
  by_cases hh : h = h'
  · subst hh
    rw [set_self] at hi
    exact .inr ⟨rfl, Option.some.inj hi ▸ hs⟩
  · rw [set_of_ne _ _ hh] at hi
    exact .inl ⟨i, hi, hs⟩

/-- Only `settleInvoice` settles. -/
theorem LnNode.settled_of_perform {bolt11 : String} {call : NodeCall} {a : NodeAnswer} {h : Hash}
    (hp : node.perform bolt11 call = some (node', a)) (he : Ended node' h .settled) :
    Ended node h .settled ∨ call = .settleInvoice h := by
  cases call with
  | lookupInvoice h' =>
    simp only [perform, Option.some.injEq, Prod.mk.injEq] at hp
    exact .inl (hp.1 ▸ he)
  | addHoldInvoice h' =>
    simp only [perform] at hp
    split at hp
    · cases hp
    · simp only [Option.map_eq_some_iff, Prod.mk.injEq] at hp
      obtain ⟨n, hn, rfl, -⟩ := hp
      obtain ⟨-, rfl⟩ := addHoldInvoice_spec hn
      exact .inl ((settled_of_set he).resolve_right fun h => by cases h.2)
  | settleInvoice h' =>
    simp only [perform, Option.map_eq_some_iff, Prod.mk.injEq] at hp
    obtain ⟨n, hn, rfl, -⟩ := hp
    obtain ⟨inv, -, -, rfl⟩ := settleInvoice_spec hn
    exact (settled_of_set he).imp_right fun h => by rw [h.1]
  | cancelInvoice h' =>
    simp only [perform, Option.map_eq_some_iff, Prod.mk.injEq] at hp
    obtain ⟨n, hn, rfl, -⟩ := hp
    obtain ⟨inv, -, -, rfl⟩ := cancelInvoice_spec hn
    exact .inl ((settled_of_set he).resolve_right fun h => by cases h.2)

/-- What a served call has settled is the invoice of a `settleInvoice` that took effect. -/
theorem LnNode.settled_of_serve {fault : Fault} {bolt11 : String} {call : NodeCall} {h : Hash}
    (he : Ended (node.serve fault bolt11 call).1 h .settled) : Ended node h .settled ∨
      (call = .settleInvoice h ∧ fault ≠ .lostRequest ∧ (node.perform bolt11 call).isSome) := by
  cases hp : node.perform bolt11 call with
  | none => cases fault <;> exact .inl (by simpa [serve, hp] using he)
  | some r =>
    have hr : fault ≠ .lostRequest → Ended r.1 h .settled := by
      intro hf
      cases fault <;> simp_all [serve]
    by_cases hf : fault = .lostRequest
    · subst hf
      exact .inl (by simpa [serve] using he)
    · exact (settled_of_perform hp (hr hf)).imp_right fun hc => ⟨hc, hf, rfl⟩

/-! ## The log of calls -/

/-- What a call that the close of an order has made says of the order: it is closed for good, or
still closing for a reason whose rule takes the escrow first and allows the call. -/
def CloseCalled (node : LnNode) (db : LnDb) (call : NodeCall) (o : LnOrderRow) : Prop :=
  (o.pendingClose = none ∧ isTerminalState o.state = true) ∨
    ∃ reason, o.pendingClose = some reason ∧
      (reason.rule.escrow = .settle → ∃ h, o.escrowHash = some h ∧ Ended node h .settled) ∧
      ∀ h, call = .settleInvoice h → MaySettle db o reason.rule h

/-- What the calls that took effect say. -/
structure CallLog (node : LnNode) (db : LnDb) (calls : List (Effect LnEffect × NodeCall)) :
    Prop where
  settled : ∀ e h, (e, .settleInvoice h) ∈ calls → Ended node h .settled
  logged : ∀ h, Ended node h .settled → ∃ e, (e, .settleInvoice h) ∈ calls
  source : ∀ e h, (e, .settleInvoice h) ∈ calls →
    (e = .holdDispose h .settle ∧ LateEscrow db h) ∨
      ∃ id r, e = .own (.close id) ∧ db.holds.find h = some r ∧ r.orderId = id
  close : ∀ id call, (.own (.close id), call) ∈ calls →
    ∃ o, getOrder id db = some o ∧ CloseCalled node db call o

section Edges

variable {o o' : LnOrderRow} {reason : LnCloseReason} {call : NodeCall}

/-- An order that is closed stays closed. -/
theorem OrderNext.closed (hn : OrderNext c db o o') (hp : o.pendingClose = none)
    (ht : isTerminalState o.state = true) :
    o'.pendingClose = none ∧ isTerminalState o'.state = true := by
  have hstate : ∀ {s : OrderState}, o.state = s → isTerminalState s = true := fun hs => hs ▸ ht
  have hnone : ∀ {r}, o.pendingClose = some r → False := fun h => by rw [hp] at h; cases h
  cases hn with
  | same => exact ⟨hp, ht⟩
  | close reason _ hc =>
    rw [canTransition, of_decide_eq_true ht] at hc
    cases hc
  | step p hs =>
    cases hs with
    | claim _ hs => exact absurd (hstate hs) (by decide)
    | revert hs => exact absurd (hstate hs) (by decide)
    | verify _ _ hs => exact absurd (hstate hs) (by decide)
    | escrowed _ hs => exact absurd (hstate hs) (by decide)
    | firstInvoice _ hs => exact absurd (hstate hs) (by decide)
    | remit hs => exact absurd (hstate hs) (by decide)
    | finish _ hr => exact (hnone hr).elim
    | abandon _ hr => exact (hnone hr).elim
    | _ => exact ⟨hp, ht⟩

/-- What may become of an order that is closing: it goes on closing, it is closed, or the close is
given up because its escrow cannot be taken. -/
theorem OrderNext.closing_cases (hn : OrderNext c db o o') (hinv : OrderInv c.env db o)
    (hpc : o.pendingClose = some reason) :
    (o'.pendingClose = some reason ∧ o'.sponsor = o.sponsor ∧
      (reason.rule.escrow = .settle → o'.escrowHash = o.escrowHash)) ∨
    (c.closes o.orderId ∧ o'.pendingClose = none ∧ isTerminalState o'.state = true) ∨
    (c.closes o.orderId ∧ reason.rule.escrow = .settle ∧
      ∀ h, o.escrowHash = some h → ¬ Ended c.node h .settled) := by
  have hnone : o.pendingClose = none → False := fun h => by rw [h] at hpc; cases hpc
  cases hn with
  | same => exact .inl ⟨hpc, rfl, fun _ => rfl⟩
  | close _ hp => exact (hnone hp).elim
  | step p hs =>
    cases hs with
    | claim _ _ hp => exact (hnone hp).elim
    | revert _ hp => exact (hnone hp).elim
    | approve _ _ _ hp => exact (hnone hp).elim
    | unapprove hs =>
      -- a claimed order does not close by taking an escrow
      refine .inl ⟨hpc, rfl, fun hset => ?_⟩
      have hsrc := source_of_settle (hinv.closing reason hpc) hset
      rw [hs] at hsrc
      rcases hsrc with h | h <;> cases h
    | abandon r hr hset hend hlost =>
      obtain rfl := Option.some.inj (hpc.symm.trans hr)
      exact .inr (.inr ⟨hend, hset, hlost⟩)
    | finish r _ hend => exact .inr (.inl ⟨hend, rfl, r.terminal_isTerminal⟩)
    | _ => exact .inl ⟨hpc, rfl, fun _ => rfl⟩

theorem MaySettle.next {rule : CloseRule} {h : Hash} (hm : MaySettle db o rule h)
    (he : LnEdge c id db db') (hid : o'.orderId = o.orderId) (hsp : o'.sponsor = o.sponsor)
    (hesc : rule.escrow = .settle → o'.escrowHash = o.escrowHash) : MaySettle db' o' rule h := by
  rcases hm.mono he with ⟨hset, hh⟩ | hrow
  · exact .inl ⟨hset, (hesc hset).trans hh⟩
  · exact .inr (by rwa [hid, hsp])

/-- **An edge** keeps what a call of a close says. -/
theorem LnEdge.closeCalled (he : LnEdge c id db db') (hinv : LnInv c.env c.node db)
    (ho : getOrder id' db = some o) (h : CloseCalled c.node db call o) :
    ∃ o', getOrder id' db' = some o' ∧ CloseCalled c.node db' call o' := by
  obtain ⟨o', ho', hn⟩ := he.order_next ho
  refine ⟨o', ho', ?_⟩
  have hid : o'.orderId = o.orderId := (getOrder_orderId ho').trans (getOrder_orderId ho).symm
  rcases h with ⟨hp, ht⟩ | ⟨reason, hpc, htaken, hmay⟩
  · exact .inl (hn.closed hp ht)
  · rcases hn.closing_cases (hinv.order _ o ho) hpc with
      ⟨hpc', hsp, hesc⟩ | ⟨-, hclosed⟩ | ⟨-, hset, hlost⟩
    · refine .inr ⟨reason, hpc', fun hset => ?_, fun h hc => (hmay h hc).next he hid hsp hesc⟩
      rw [hesc hset]
      exact htaken hset
    · exact .inl hclosed
    · obtain ⟨h, hh, hend⟩ := htaken hset
      exact absurd hend (hlost h hh)

theorem LnEdge.callLog (he : LnEdge c id db db') (hinv : LnInv c.env c.node db)
    (h : CallLog c.node db calls) : CallLog c.node db' calls where
  settled := h.settled
  logged := h.logged
  source e hash hmem := by
    rcases h.source e hash hmem with ⟨rfl, hl⟩ | ⟨id, r, rfl, hr, hid⟩
    · exact .inl ⟨rfl, he.lateEscrow hinv.order hl⟩
    · obtain ⟨r', hr', hl⟩ := he.find_later hr
      exact .inr ⟨id, r', rfl, hr', hl.orderId.trans hid⟩
  close id call hmem := by
    obtain ⟨o, ho, hc⟩ := h.close id call hmem
    exact he.closeCalled hinv ho hc

theorem CallLog.prepared (hp : Prepared db db') (h : CallLog node db calls) :
    CallLog node db' calls where
  settled := h.settled
  logged := h.logged
  source e hash hmem := by
    refine (h.source e hash hmem).imp (fun ⟨he, hl⟩ => ⟨he, hl.prepared hp⟩) ?_
    simpa only [hp.holds] using fun h => h
  close id call hmem := by
    simpa only [hp.getOrder_eq, CloseCalled, MaySettle, hp.holds] using h.close id call hmem

end Edges

/-- The payers and the node itself settle nothing. -/
theorem CallLog.drift (h : CallLog node db calls) (hd : node.Drifts node') :
    CallLog node' db calls where
  settled e hash hmem := (h.settled e hash hmem).settled_later hd.later
  logged hash he := h.logged hash (hd.noSettle hash he)
  source := h.source
  close id call hmem := by
    obtain ⟨o, ho, hc⟩ := h.close id call hmem
    refine ⟨o, ho, hc.imp_right fun ⟨reason, hpc, htaken, hmay⟩ =>
      ⟨reason, hpc, fun hset => ?_, hmay⟩⟩
    obtain ⟨hash, hh, he⟩ := htaken hset
    exact ⟨hash, hh, he.settled_later hd.later⟩

/-- What a call that changes an invoice is made by: a disposal, a clean-up, or a close that is
allowed to. -/
theorem RunFact.disposal {e : Effect LnEffect} {a : LnAwait} {call : NodeCall}
    (h : RunFact env node db e a) (hinv : LnInv env node db) (hcall : LnWorld.nodeCall a = some call)
    (hd : LnWorld.isDisposal call = true) :
    (∀ h, call = .settleInvoice h → (e = .holdDispose h .settle ∧ LateEscrow db h) ∨
      ∃ id r, e = .own (.close id) ∧ db.holds.find h = some r ∧ r.orderId = id) ∧
    ∀ id, e = .own (.close id) → ∃ o reason, getOrder id db = some o ∧
      o.pendingClose = some reason ∧
      (reason.rule.escrow = .settle → ∃ h, o.escrowHash = some h ∧
        (Ended node h .settled ∨ call = .settleInvoice h)) ∧
      ∀ h, call = .settleInvoice h → MaySettle db o reason.rule h := by
  cases a with
  | hold a =>
    obtain rfl := Option.some.inj hcall
    cases a with
    | createCancel inv =>
      obtain ⟨rfl, -⟩ := h
      exact ⟨(fun _ hc => by cases hc), fun _ he => by cases he⟩
    | disposeCall inv final =>
      obtain ⟨action, rfl, hf⟩ := h
      refine ⟨fun hash hc => .inl ?_, fun _ he => by cases he⟩
      cases final with
      | cancelled => cases hc
      | settled =>
        cases hc
        obtain ⟨rfl, hl⟩ := hf rfl
        exact ⟨rfl, hl⟩
    | _ => cases hd
  | closeEscrowLookup => cases Option.some.inj hcall; cases hd
  | closeLookup => cases Option.some.inj hcall; cases hd
  | payoutTrack => cases hcall
  | payoutPay => cases hcall
  | closeEscrowCall order rule escrow final =>
    obtain rfl := Option.some.inj hcall
    obtain ⟨rfl, ⟨o, reason, ho, hpc, rfl, -, heq⟩, hesc, -, hiff⟩ := h
    have hmine : ∀ h, final.call escrow.paymentHash = .settleInvoice h →
        final = .settled ∧ escrow.paymentHash = h := by
      intro h hc
      cases final <;> cases hc
      exact ⟨rfl, rfl⟩
    refine ⟨fun h hc => .inr ?_, fun id hid => ?_⟩
    · obtain ⟨-, rfl⟩ := hmine h hc
      rcases (hinv.order _ o ho).amounts with ⟨-, hn⟩ | ⟨p, r, hr⟩
      · rw [← heq, hesc] at hn
        cases hn
      · have hkey : r.paymentHash = escrow.paymentHash :=
          Option.some.inj (hr.hash.symm.trans (heq.symm.trans hesc))
        exact ⟨_, r, rfl, hkey ▸ hr.found, hr.orderId.trans (getOrder_orderId ho)⟩
    · cases hid
      refine ⟨o, reason, ho, hpc, fun hset => ?_, fun h hc => ?_⟩
      · exact ⟨_, heq.symm.trans hesc, .inr (by rw [hiff.mpr hset]; rfl)⟩
      · obtain ⟨hf, rfl⟩ := hmine h hc
        exact .inl ⟨hiff.mp hf, heq.symm.trans hesc⟩
  | closeCall finals inv final todo =>
    obtain rfl := Option.some.inj hcall
    obtain ⟨order, rule, want, rfl, ⟨o, reason, ho, hpc, rfl, hsp, heq⟩, hp, hwant⟩ := h
    have hid : order.orderId = o.orderId := (getOrder_orderId ho).symm
    have hmay : ∀ h, final.call inv.paymentHash = .settleInvoice h →
        MaySettle db o reason.rule h := by
      intro h hc
      cases final with
      | cancelled => cases hc
      | settled =>
        cases hc
        have := (hp.pending _ List.mem_cons_self).2 (hwant rfl)
        simpa only [MaySettle, hsp, heq, hid] using this
    refine ⟨fun h hc => .inr ?_, fun id he => ?_⟩
    · rcases hmay h hc with ⟨-, hh⟩ | ⟨r, hr, hrid, -⟩
      · rcases (hinv.order _ o ho).amounts with ⟨-, hn⟩ | ⟨p, r, hr⟩
        · rw [hh] at hn
          cases hn
        · obtain rfl := Option.some.inj (hr.hash.symm.trans hh)
          exact ⟨_, r, rfl, hr.found, hr.orderId.trans hid.symm⟩
      · exact ⟨_, r, rfl, hr, hrid.trans hid.symm⟩
    · cases he
      refine ⟨o, reason, ho, hpc, fun hset => ?_, hmay⟩
      obtain ⟨h, hh, hmem⟩ := hp.taken hset
      exact ⟨h, heq.symm.trans hh, .inl (hp.ended _ hmem)⟩

/-- **The node serves a call**, which is logged when it takes effect. -/
theorem CallLog.serve {e : Effect LnEffect} {a : LnAwait} {call : NodeCall} {fault : Fault}
    {bolt11 : String} (h : CallLog node db calls) (hrun : RunFact env node db e a)
    (hinv : LnInv env node db) (hcall : LnWorld.nodeCall a = some call) :
    CallLog (node.serve fault bolt11 call).1 db
      (if LnWorld.isDisposal call ∧ fault ≠ .lostRequest ∧ (node.perform bolt11 call).isSome
        then calls ++ [(e, call)] else calls) := by
  have hl := LnNode.later_serve node fault bolt11 call
  -- what was logged before stays true
  have hold : ∀ id call', (.own (.close id), call') ∈ calls →
      ∃ o, getOrder id db = some o ∧ CloseCalled (node.serve fault bolt11 call).1 db call' o := by
    intro id call' hmem
    obtain ⟨o, ho, hc⟩ := h.close id call' hmem
    refine ⟨o, ho, hc.imp_right fun ⟨reason, hpc, htaken, hmay⟩ =>
      ⟨reason, hpc, fun hset => ?_, hmay⟩⟩
    obtain ⟨hash, hh, he⟩ := htaken hset
    exact ⟨hash, hh, he.settled_later hl⟩
  split
  · rename_i hlog
    obtain ⟨hd, hf, hsome⟩ := hlog
    obtain ⟨hsource, hclose⟩ := hrun.disposal hinv hcall hd
    obtain ⟨⟨n, b⟩, hp⟩ := Option.isSome_iff_exists.mp hsome
    have hnode : (node.serve fault bolt11 call).1 = n := by
      cases fault <;> simp_all [LnNode.serve]
    have hnew : ∀ h, call = .settleInvoice h →
        Ended (node.serve fault bolt11 call).1 h .settled := by
      rintro h rfl
      rw [hnode]
      exact ended_of_perform (f := .settled) hp
    refine ⟨?_, ?_, ?_, ?_⟩
    · intro e' hash hmem
      rcases List.mem_append.mp hmem with hmem | hmem
      · exact (h.settled e' hash hmem).settled_later hl
      · exact hnew hash (Prod.mk.inj (List.mem_singleton.mp hmem)).2.symm
    · intro hash he
      rcases LnNode.settled_of_serve he with he | ⟨hc, -⟩
      · obtain ⟨e', hmem⟩ := h.logged hash he
        exact ⟨e', List.mem_append_left _ hmem⟩
      · exact ⟨e, by rw [hc]; simp⟩
    · intro e' hash hmem
      rcases List.mem_append.mp hmem with hmem | hmem
      · exact h.source e' hash hmem
      · obtain ⟨rfl, hc⟩ := Prod.mk.inj (List.mem_singleton.mp hmem)
        exact hsource hash hc.symm
    · intro id call' hmem
      rcases List.mem_append.mp hmem with hmem | hmem
      · exact hold id call' hmem
      · obtain ⟨he, rfl⟩ := Prod.mk.inj (List.mem_singleton.mp hmem)
        obtain ⟨o, reason, ho, hpc, htaken, hmay⟩ := hclose id he.symm
        refine ⟨o, ho, .inr ⟨reason, hpc, fun hset => ?_, hmay⟩⟩
        obtain ⟨hash, hh, he⟩ := htaken hset
        exact ⟨hash, hh, he.elim (fun he => he.settled_later hl) (hnew hash)⟩
  · rename_i hlog
    refine ⟨fun e' hash hmem => (h.settled e' hash hmem).settled_later hl, fun hash he => ?_,
      h.source, hold⟩
    rcases LnNode.settled_of_serve he with he | ⟨rfl, hf, hsome⟩
    · exact h.logged hash he
    · exact absurd ⟨rfl, hf, hsome⟩ hlog

theorem CallLog.moved (h : CallLog c.node db calls) (hinv : LnInv c.env c.node db)
    (hm : Moved c db db') : CallLog c.node db' calls := by
  refine (hm.keeps (P := fun db => LnInv c.env c.node db ∧ CallLog c.node db calls)
    ?_ ?_ ⟨hinv, h⟩).2
  · rintro a b hp ⟨hinv, h⟩
    exact ⟨hinv.prepared hp, h.prepared hp⟩
  · rintro a b ⟨id, he⟩ ⟨hinv, h⟩
    exact ⟨he.lnInv hinv, he.callLog hinv h⟩

/-- The steps that are not the node's leave the node and the log as they are. -/
theorem node_calls_of_step (hs : LnWorld.step env w i = some w') :
    (w'.node = w.node ∧ w'.calls = w.calls) ∨
    (w'.db = w.db ∧ w'.calls = w.calls ∧
      ((∃ h height, w.node.accept h height w.now = some w'.node) ∨
        ∃ h, w.node.expire h = some w'.node)) ∨
    ∃ fault bolt11 e a call, w.running = some ⟨e, a, none⟩ ∧ LnWorld.nodeCall a = some call ∧
      w'.db = w.db ∧ w'.node = (w.node.serve fault bolt11 call).1 ∧
      w'.calls = if LnWorld.isDisposal call ∧ fault ≠ .lostRequest ∧
        (w.node.perform bolt11 call).isSome then w.calls ++ [(e, call)] else w.calls := by
  have hturn : ∀ (e : Effect LnEffect) (t : LnTurn),
      (w.turn env e t).node = w.node ∧ (w.turn env e t).calls = w.calls := by
    intro e t
    rcases turn_cases env w e t with ⟨a, rfl⟩ | ⟨db, h⟩
    · exact ⟨rfl, rfl⟩
    · rw [h]
      exact ⟨rfl, rfl⟩
  cases i with
  | request action event price =>
    obtain rfl := Option.some.inj hs
    exact .inl (by rw [transact_eq]; exact ⟨rfl, rfl⟩)
  | command cmd orderId version price =>
    obtain rfl := Option.some.inj hs
    exact .inl (by rw [transact_eq]; exact ⟨rfl, rfl⟩)
  | clock height price =>
    obtain rfl := Option.some.inj hs
    exact .inl (by rw [transact_eq]; exact ⟨rfl, rfl⟩)
  | otherTrack p =>
    simp only [LnWorld.step] at hs
    split at hs
    · cases hs
    · obtain rfl := Option.some.inj hs
      exact .inl (by rw [transact_eq]; exact ⟨rfl, rfl⟩)
  | start e =>
    simp only [LnWorld.step] at hs
    split at hs <;> cases hs
    exact .inl (hturn _ _)
  | resume =>
    simp only [LnWorld.step] at hs
    split at hs <;> cases hs
    exact .inl (hturn _ _)
  | accept hash height =>
    obtain ⟨n, hn, rfl⟩ := Option.map_eq_some_iff.mp hs
    exact .inr (.inl ⟨rfl, rfl, .inl ⟨hash, height, hn⟩⟩)
  | expire hash =>
    obtain ⟨n, hn, rfl⟩ := Option.map_eq_some_iff.mp hs
    exact .inr (.inl ⟨rfl, rfl, .inr ⟨hash, hn⟩⟩)
  | serve fault bolt11 =>
    simp only [LnWorld.step] at hs
    split at hs
    · rename_i e a hr
      split at hs
      · cases hs
      · rename_i call hcall
        obtain rfl := Option.some.inj hs
        exact .inr (.inr ⟨fault, bolt11, e, a, call, hr, hcall, rfl, rfl, rfl⟩)
    · cases hs
  | tick seconds => exact .inl (Option.some.inj hs ▸ ⟨rfl, rfl⟩)
  | configSet settings => exact .inl (Option.some.inj hs ▸ ⟨rfl, rfl⟩)
  | crash => exact .inl (Option.some.inj hs ▸ ⟨rfl, rfl⟩)
  | payByHand hash => exact .inl (Option.some.inj hs ▸ ⟨rfl, rfl⟩)
  | poll hash =>
    simp only [LnWorld.step] at hs
    split at hs <;> cases hs
    exact .inl ⟨rfl, rfl⟩
  | observe =>
    simp only [LnWorld.step] at hs
    split at hs
    · cases hs
    · split at hs <;> cases hs <;> exact .inl ⟨rfl, rfl⟩
  | answer ans =>
    simp only [LnWorld.step] at hs
    split at hs
    · split at hs <;> cases hs
      exact .inl ⟨rfl, rfl⟩
    · cases hs
  | resolve index status =>
    simp only [LnWorld.step] at hs
    split at hs
    · split at hs <;> cases hs
      exact .inl ⟨rfl, rfl⟩
    · cases hs

theorem callLog_step (hsound : Sound env w) (h : CallLog w.node w.db w.calls)
    (hs : LnWorld.step env w i = some w') : CallLog w'.node w'.db w'.calls := by
  rcases node_calls_of_step hs with ⟨hn, hc⟩ |
    ⟨hdb, hc, ⟨hash, height, hacc⟩ | ⟨hash, hexp⟩⟩ |
    ⟨fault, bolt11, e, a, call, hr, hcall, hdb, hn, hc⟩
  · rw [hn, hc]
    exact CallLog.moved (c := w.context env i) h hsound.ledger (step_moved hsound hs)
  · rw [hdb, hc]
    exact h.drift (LnNode.drifts_accept hacc)
  · rw [hdb, hc]
    exact h.drift (LnNode.drifts_expire hexp)
  · rw [hdb, hn, hc]
    exact h.serve (hsound.running e a _ hr).1 hsound.ledger hcall

theorem callLog_of_reachable (hw : (lnSystem env).Reachable w) :
    CallLog w.node w.db w.calls := by
  refine TransitionSystem.invariant (P := fun w => CallLog w.node w.db w.calls) ?_ ?_ hw
  · rintro _ ⟨now, rfl⟩
    refine ⟨?_, ?_, ?_, ?_⟩
    · intro e h hmem
      cases hmem
    · rintro h ⟨inv, hinv, -⟩
      cases hinv
    · intro e h hmem
      cases hmem
    · intro id call hmem
      cases hmem
  · intro w i w' hw h hs
    exact callLog_step (sound_of_reachable hw) h hs

/-! ## What has been settled -/

/-- The row of an order's escrow. -/
theorem OrderInv.escrow_row {o : LnOrderRow} {h : Hash} (hinv : OrderInv env db o)
    (hh : o.escrowHash = some h) :
    ∃ r, db.holds.find h = some r ∧ r.purpose = .lnEscrow ∧ r.orderId = o.orderId := by
  rcases hinv.amounts with ⟨-, hn⟩ | ⟨p, r, hr⟩
  · rw [hn] at hh
    cases hh
  · obtain rfl := Option.some.inj (hr.hash.symm.trans hh)
    exact ⟨r, hr.found, hr.purpose, hr.orderId⟩

/-- Who has settled an invoice of an order that is closing. -/
theorem CallLog.settled_cases {o : LnOrderRow} {reason : LnCloseReason} {h : Hash} {r : HoldRow}
    (hlog : CallLog node db calls) (hinv : LnInv env node db) (ho : getOrder id db = some o)
    (hpc : o.pendingClose = some reason) (hr : db.holds.find h = some r) (hid : r.orderId = id)
    (he : Ended node h .settled) :
    (o.escrowHash = some h ∧ (.holdDispose h .settle, .settleInvoice h) ∈ calls) ∨
      MaySettle db o reason.rule h := by
  obtain ⟨e, hmem⟩ := hlog.logged h he
  rcases hlog.source e h hmem with ⟨rfl, id', o', ho', hh', -⟩ | ⟨id', r', rfl, hr', hid'⟩
  · -- a late escrow is the escrow of its order only
    obtain ⟨r', hr', -, hid'⟩ := (hinv.order id' o' ho').escrow_row hh'
    obtain rfl := Option.some.inj (hr.symm.trans hr')
    rw [getOrder_orderId ho', hid] at hid'
    subst hid'
    obtain rfl := Option.some.inj (ho.symm.trans ho')
    exact .inl ⟨hh', hmem⟩
  · obtain rfl := Option.some.inj (hr.symm.trans hr')
    obtain rfl : id = id' := hid.symm.trans hid'
    obtain ⟨o', ho', hc⟩ := hlog.close id _ hmem
    obtain rfl := Option.some.inj (ho.symm.trans ho')
    rcases hc with ⟨hn, -⟩ | ⟨reason', hpc', -, hmay⟩
    · rw [hpc] at hn
      cases hn
    · obtain rfl := Option.some.inj (hpc.symm.trans hpc')
      exact .inr (hmay h rfl)

/-! ## The end of a close -/

/-- The invoices of an order stand as the rule of its close says. -/
structure ClosedByRule (w : LnWorld) (o : LnOrderRow) (rule : CloseRule) : Prop where
  /-- every invoice has ended, on record and on the node -/
  ended : ∀ h r, w.db.holds.find h = some r → r.orderId = o.orderId → r.purpose ∈ lnHoldPurposes →
    (r.status = .settled ∧ Ended w.node h .settled) ∨
      (r.status = .cancelled ∧ Ended w.node h .cancelled)
  /-- the escrow is taken by the rule, or the dispose effect of its own had taken it -/
  escrow : ∀ h, o.escrowHash = some h → (Ended w.node h .settled ↔
    rule.escrow = .settle ∨ (.holdDispose h .settle, .settleInvoice h) ∈ w.calls)
  customerDeposit : ∀ h r, w.db.holds.find h = some r → r.orderId = o.orderId →
    r.purpose = .lnCustomerDeposit → r.status = .settled → rule.customerDeposit = .forfeit
  sponsorDeposit : ∀ h r, w.db.holds.find h = some r → r.orderId = o.orderId →
    r.purpose = .lnSponsorDeposit → r.status = .settled →
      rule.sponsorDeposit = .forfeit ∧ o.sponsor = some r.party
  earlierEscrow : ∀ h r, w.db.holds.find h = some r → r.orderId = o.orderId →
    r.purpose = .lnEscrow → o.escrowHash ≠ some h → r.status = .cancelled

/-- The close has been given up: its escrow could not be taken, and it has touched nothing. -/
structure ClosingAbandoned (w w' : LnWorld) (o o' : LnOrderRow) (rule : CloseRule) : Prop where
  settles : rule.escrow = .settle
  lost : ∀ h, o.escrowHash = some h → ¬ Ended w.node h .settled
  order : o' = o.restamp { o with pendingClose := none } w.now
  holds : w'.db.holds = w.db.holds
  node : w'.node = w.node
  untouched : ∀ call, (.own (.close o.orderId), call) ∉ w'.calls

section End

variable {o o' : LnOrderRow} {reason : LnCloseReason}

/-- Only a turn of its close ends the closing of an order. -/
theorem effectOf_of_cleared (hsound : Sound env w) (hs : LnWorld.step env w i = some w')
    (ho : getOrder id w.db = some o) (hpc : o.pendingClose = some reason)
    (ho' : getOrder id w'.db = some o') (hend : o'.pendingClose = none) :
    w.effectOf i = some (.own (.close id)) := by
  by_contra hne
  have hkept := (step_moved hsound hs).keeps (P := fun db => LnInv env w.node db ∧
    ∃ o, getOrder id db = some o ∧ o.pendingClose = some reason) ?_ ?_ ⟨hsound.ledger, o, ho, hpc⟩
  · obtain ⟨-, o₁, ho₁, hpc₁⟩ := hkept
    obtain rfl := Option.some.inj (ho'.symm.trans ho₁)
    rw [hend] at hpc₁
    cases hpc₁
  · rintro a b hp ⟨hinv, o, ho, hpc⟩
    exact ⟨hinv.prepared hp, o, by rw [hp.getOrder_eq, ho], hpc⟩
  · rintro a b ⟨id', he⟩ ⟨hinv, o, ho, hpc⟩
    obtain ⟨o', ho', hn⟩ := he.order_next ho
    refine ⟨he.lnInv hinv, o', ho', ?_⟩
    rcases hn.closing_cases (hinv.order id o ho) hpc with h | ⟨hc, -⟩ | ⟨hc, -⟩
    · exact h.1
    all_goals
      rw [getOrder_orderId ho] at hc
      exact absurd hc hne

/-- A step that takes a turn of an effect. -/
theorem takesTurn_of_effectOf {e : Effect LnEffect} (hsound : Sound env w)
    (hs : LnWorld.step env w i = some w') (he : w.effectOf i = some e) :
    ∃ t, TakesTurn env w i e t w' := by
  cases i with
  | start e' =>
    obtain rfl := Option.some.inj he
    exact ⟨_, takesTurn_start hsound hs⟩
  | resume =>
    obtain ⟨e', a, ans, hr, ht⟩ := takesTurn_resume hsound hs
    obtain rfl := Option.some.inj (he.symm.trans ht.effect)
    exact ⟨_, ht⟩
  | _ => cases he

/-- What a finished close leaves of its order. -/
theorem getOrder_closeOrder {now : ℤ} (ho : getOrder id db = some o) :
    getOrder id (closeOrder now id reason db) = some (o.restamp { o with
      state := reason.rule.terminal, closeReason := some reason, pendingClose := none } now) := by
  rw [closeOrder, getOrder_setOrder, if_pos rfl, ho]
  rfl

/-- How the closing of an order can end: it is finished, with the ends of all its invoices on
record, or it is given up. -/
theorem close_end_cases (hsound : Sound env w) (hs : LnWorld.step env w i = some w')
    (ho : getOrder id w.db = some o) (hpc : o.pendingClose = some reason)
    (ho' : getOrder id w'.db = some o') (hend : o'.pendingClose = none) :
    (w'.node = w.node ∧ w'.calls = w.calls) ∧
    ((o'.state = reason.rule.terminal ∧ o'.closeReason = some reason ∧
        o'.escrowHash = o.escrowHash ∧ o'.sponsor = o.sponsor ∧
        (reason.rule.escrow = .settle → ∃ h, o.escrowHash = some h ∧ Ended w.node h .settled) ∧
        (∀ h, w.db.holds.find h = none → w'.db.holds.find h = none) ∧
        ∀ h r, w.db.holds.find h = some r → r.orderId = id → r.purpose ∈ lnHoldPurposes →
          ∃ r', w'.db.holds.find h = some r' ∧ r'.Final) ∨
      (reason.rule.escrow = .settle ∧ (∀ h, o.escrowHash = some h → ¬ Ended w.node h .settled) ∧
        o' = o.restamp { o with pendingClose := none } w.now ∧ w'.db.holds = w.db.holds)) := by
  have he := effectOf_of_cleared hsound hs ho hpc ho' hend
  obtain ⟨t, -, hfact, rfl⟩ := takesTurn_of_effectOf hsound hs he
  have hsame : ∀ db : LnDb, getOrder id db = some o' → getOrder id db = some o → False := by
    intro db h h'
    obtain rfl := Option.some.inj (h.symm.trans h')
    rw [hpc] at hend
    cases hend
  cases t with
  | await a => exact (hsame w.db ho' ho).elim
  | retry err => exact (hsame w.db ho' ho).elim
  | dead err =>
    obtain ⟨o₁, r₁, ho₁, hpc₁, hset, hlost⟩ := hfact
    obtain rfl := Option.some.inj (ho.symm.trans ho₁)
    obtain rfl := Option.some.inj (hpc.symm.trans hpc₁)
    have hdead : LnCtx.abandonClose ⟨env, w.now, none⟩ id (w.db.finish (.own (.close id))) =
        .ok (setOrder w.now id (fun o => { o with pendingClose := none })
          (w.db.finish (.own (.close id)))) := by
      have hf : getOrder id (w.db.finish (.own (.close id))) = some o := ho
      simp only [LnCtx.abandonClose, updateOrder, hf, hpc, reduceCtorEq, if_false, setOrder]
    have hw : w.turn env (.own (.close id)) (.dead err) = { w with
        running := none
        db := setOrder w.now id (fun o => { o with pendingClose := none })
          (w.db.finish (.own (.close id))) } := by
      simp only [LnWorld.turn, LnWorld.transact, LnCtx.onDead, hdead]
    rw [hw] at ho' ⊢
    have ho₂ := (getOrder_setOrder ..).symm.trans ho'
    rw [if_pos rfl, show getOrder id (w.db.finish (.own (.close id))) = some o from ho] at ho₂
    exact ⟨⟨rfl, rfl⟩, .inr ⟨hset, hlost, (Option.some.inj ho₂).symm, rfl⟩⟩
  | done r =>
    cases r with
    | hold r => exact False.elim hfact
    | payout r => exact False.elim hfact
    | closed finals =>
      have hfact : DoneFact (w.context env i) (w.db.finish (.own (.close id))) (.own (.close id))
        (.closed finals) := hfact.prepared (prepared_finish _ _)
      obtain ⟨hclose, hcover⟩ := hfact
      have hf : getOrder id (w.db.finish (.own (.close id))) = some o := ho
      cases hfin : LnCtx.finishClose ⟨env, w.now, none⟩ id finals
          (w.db.finish (.own (.close id))) with
      | error err =>
        have hw : w.turn env (.own (.close id)) (.done (.closed finals)) =
            { w with running := none } := by
          unfold LnWorld.turn
          dsimp only [LnCtx.onDone]
          rw [hfin]
          rfl
        rw [hw] at ho'
        exact (hsame w.db ho' ho).elim
      | ok db₂ =>
        have hw : w.turn env (.own (.close id)) (.done (.closed finals)) =
            { w with running := none, db := db₂ } := by
          unfold LnWorld.turn
          dsimp only [LnCtx.onDone]
          rw [hfin]
        rw [hw] at ho' ⊢
        dsimp only at ho' ⊢
        rcases finishClose_cases (c := w.context env i) hfin with
          ⟨-, hn⟩ | ⟨o₁, r₁, db₁, o₂, ho₁, hpc₁, hbatch, ho₂, hsc, hdb⟩
        · rw [hn o hf] at hpc
          cases hpc
        · obtain rfl := Option.some.inj (hf.symm.trans ho₁)
          obtain rfl := Option.some.inj (hpc.symm.trans hpc₁)
          have hspec := batch_spec hbatch
          have hholds : db₂.holds = db₁.holds := by
            rcases hdb with rfl | rfl
            · rfl
            · rw [LnCtx.requestPayout, Db.enqueue_holds]
              rfl
          have horder : getOrder id db₂ = getOrder id (closeOrder w.now id reason db₁) := by
            rcases hdb with rfl | rfl
            · rfl
            · rw [getOrder, LnCtx.requestPayout, Db.enqueue_track]
              rfl
          rw [horder, getOrder_closeOrder ho₂] at ho'
          obtain rfl := Option.some.inj ho'
          refine ⟨⟨rfl, rfl⟩, .inl ⟨rfl, rfl, hsc.escrowHash, hsc.sponsor, fun hset => ?_,
            fun h hn => ?_, fun h r hr hid hpurpose => ?_⟩⟩
          · obtain ⟨r, hh, -, hmem⟩ := hclose.taken o reason hf hpc hset
            exact ⟨_, hh, hclose.ended _ hmem⟩
          · rw [hholds]
            exact hspec.noNew h hn
          · obtain ⟨r', hr', hfinal⟩ := hspec.rows h r hr
            rw [hholds]
            exact ⟨r', hr', hfinal ((hcover o hf (by rw [hpc]; simp) h r hr hid hpurpose).symm)⟩

/-- **A close settles exactly by the rule.**  When the closing of an order ends, every invoice of
the order has ended by the rule of the reason; or its escrow could not be taken, and neither the
order nor an invoice has been touched. -/
theorem close_settles_by_rule (hw : (lnSystem env).Reachable w)
    (hs : LnWorld.step env w i = some w') (ho : getOrder id w.db = some o)
    (hpc : o.pendingClose = some reason) (ho' : getOrder id w'.db = some o')
    (hend : o'.pendingClose = none) :
    (o'.state = reason.rule.terminal ∧ o'.closeReason = some reason ∧
        o'.escrowHash = o.escrowHash ∧ o'.sponsor = o.sponsor ∧ ClosedByRule w' o' reason.rule) ∨
      ClosingAbandoned w w' o o' reason.rule := by
  have hsound := sound_of_reachable hw
  have hlog := callLog_of_reachable hw
  have hinv := hsound.ledger
  have hid : o.orderId = id := getOrder_orderId ho
  have hid' : o'.orderId = id := getOrder_orderId ho'
  obtain ⟨⟨hnode, hcalls⟩, h | ⟨hset, hlost, hrow, hholds⟩⟩ :=
    close_end_cases hsound hs ho hpc ho' hend
  · obtain ⟨hstate, hreason, hesc, hsp, htaken, hnew, hfinal⟩ := h
    refine .inl ⟨hstate, hreason, hesc, hsp, ?_⟩
    -- a row after the close is a later version of one before it
    have hback : ∀ h r', w'.db.holds.find h = some r' → ∃ r, w.db.holds.find h = some r ∧
        r.Later r' := by
      intro h r' hr'
      cases hr : w.db.holds.find h with
      | none =>
        rw [hnew h hr] at hr'
        cases hr'
      | some r =>
        obtain ⟨r'', hr'', hl⟩ := (step_moved hsound hs).keeps
          (P := fun db => ∃ r', db.holds.find h = some r' ∧ r.Later r')
          (fun a b hp ⟨r', hr', hl⟩ => ⟨r', by rw [hp.holds, hr'], hl⟩)
          (fun a b ⟨_, he⟩ ⟨r', hr', hl⟩ =>
            have ⟨r'', hr'', hl'⟩ := he.find_later hr'
            ⟨r'', hr'', hl.trans hl'⟩) ⟨r, hr, .refl r⟩
        obtain rfl := Option.some.inj (hr''.symm.trans hr')
        exact ⟨r, rfl, hl⟩
    have hended : ∀ h r', w'.db.holds.find h = some r' → r'.orderId = o'.orderId →
        r'.purpose ∈ lnHoldPurposes → (r'.status = .settled ∧ Ended w'.node h .settled) ∨
          (r'.status = .cancelled ∧ Ended w'.node h .cancelled) := by
      intro h r' hr' hrid hpurpose
      obtain ⟨r, hr, hl⟩ := hback h r' hr'
      obtain ⟨r'', hr'', hf⟩ := hfinal h r hr (by rw [← hl.orderId, hrid, hid'])
        (hl.purpose ▸ hpurpose)
      obtain rfl := Option.some.inj (hr''.symm.trans hr')
      obtain rfl : r''.paymentHash = h := KeyedTable.key_of_find hr'
      have hag := (sound_step hsound hs).ledger.agree _ _ hr'
      refine hf.imp (fun hst => ⟨hst, ?_⟩) fun hst => ⟨hst, ?_⟩ <;> rwa [Agrees, hst] at hag
    -- what is on record as settled has been settled by the close, or is the escrow
    have hsettled : ∀ h r', w'.db.holds.find h = some r' → r'.orderId = o'.orderId →
        r'.purpose ∈ lnHoldPurposes → r'.status = .settled →
        ∃ r, w.db.holds.find h = some r ∧ r.Later r' ∧
          (o.escrowHash = some h ∨ MaySettle w.db o reason.rule h) := by
      intro h r' hr' hrid hpurpose hst
      obtain ⟨r, hr, hl⟩ := hback h r' hr'
      have he : Ended w.node h .settled := by
        rcases hended h r' hr' hrid hpurpose with ⟨-, he⟩ | ⟨hc, -⟩
        · exact hnode ▸ he
        · rw [hst] at hc
          cases hc
      refine ⟨r, hr, hl, (hlog.settled_cases hinv ho hpc hr ?_ he).imp_left And.left⟩
      rw [← hl.orderId, hrid, hid']
    -- the escrow is no deposit
    have hkind : ∀ h r, w.db.holds.find h = some r → o.escrowHash = some h →
        r.purpose = .lnEscrow := by
      intro h r hr hh
      obtain ⟨r', hr', hp, -⟩ := (hinv.order id o ho).escrow_row hh
      obtain rfl := Option.some.inj (hr.symm.trans hr')
      exact hp
    refine ⟨hended, fun h hh => ⟨fun he => ?_, ?_⟩, ?_, ?_, ?_⟩
    · rw [hesc] at hh
      obtain ⟨r, hr, hp, hrid⟩ := (hinv.order id o ho).escrow_row hh
      rcases hlog.settled_cases hinv ho hpc hr (hrid.trans hid) (hnode ▸ he) with ⟨-, hmem⟩ | hmay
      · exact .inr (hcalls ▸ hmem)
      · rcases hmay with ⟨hset, -⟩ | ⟨r', hr', -, ⟨hp', -⟩ | ⟨hp', -⟩⟩
        · exact .inl hset
        all_goals
          obtain rfl := Option.some.inj (hr.symm.trans hr')
          rw [hp] at hp'
          cases hp'
    · rw [hesc] at hh
      rintro (hset | hmem)
      · obtain ⟨h', hh', he⟩ := htaken hset
        obtain rfl := Option.some.inj (hh.symm.trans hh')
        exact hnode ▸ he
      · exact hnode ▸ hlog.settled _ _ (hcalls ▸ hmem)
    · intro h r' hr' hrid hp hst
      obtain ⟨r, hr, hl, hh | ⟨-, hh⟩ | ⟨s, hs, -, ⟨-, hf⟩ | ⟨hp', -⟩⟩⟩ :=
        hsettled h r' hr' hrid (by simp [lnHoldPurposes, hp]) hst
      · rw [hl.purpose, hkind h r hr hh] at hp
        cases hp
      · rw [hl.purpose, hkind h r hr hh] at hp
        cases hp
      · exact hf
      · obtain rfl := Option.some.inj (hr.symm.trans hs)
        rw [hl.purpose, hp'] at hp
        cases hp
    · intro h r' hr' hrid hp hst
      obtain ⟨r, hr, hl, hh | ⟨-, hh⟩ | ⟨s, hs, -, ⟨hp', -⟩ | ⟨-, hparty, hf⟩⟩⟩ :=
        hsettled h r' hr' hrid (by simp [lnHoldPurposes, hp]) hst
      · rw [hl.purpose, hkind h r hr hh] at hp
        cases hp
      · rw [hl.purpose, hkind h r hr hh] at hp
        cases hp
      · obtain rfl := Option.some.inj (hr.symm.trans hs)
        rw [hl.purpose, hp'] at hp
        cases hp
      · obtain rfl := Option.some.inj (hr.symm.trans hs)
        exact ⟨hf, by rw [hsp, hparty, hl.party]⟩
    · intro h r' hr' hrid hp hne
      rcases hended h r' hr' hrid (by simp [lnHoldPurposes, hp]) with ⟨hst, -⟩ | ⟨hst, -⟩
      · rw [hesc] at hne
        obtain ⟨r, hr, hl, hh | ⟨-, hh⟩ | ⟨s, hs, -, ⟨hp', -⟩ | ⟨hp', -⟩⟩⟩ :=
          hsettled h r' hr' hrid (by simp [lnHoldPurposes, hp]) hst
        · exact absurd hh hne
        · exact absurd hh hne
        all_goals
          obtain rfl := Option.some.inj (hr.symm.trans hs)
          rw [hl.purpose, hp'] at hp
          cases hp
      · exact hst
  · refine .inr ⟨hset, hlost, hrow, hholds, hnode, fun call hmem => ?_⟩
    -- a close with such a reason makes no call before it has the escrow
    rw [hid, hcalls] at hmem
    obtain ⟨o₁, ho₁, hc⟩ := hlog.close id call hmem
    obtain rfl := Option.some.inj (ho.symm.trans ho₁)
    rcases hc with ⟨hn, -⟩ | ⟨reason', hpc', htaken, -⟩
    · rw [hpc] at hn
      cases hn
    · obtain rfl := Option.some.inj (hpc.symm.trans hpc')
      obtain ⟨h, hh, he⟩ := htaken hset
      exact hlost h hh he

end End

/-- The sample trade closes as `paid`, with its escrow settled. -/
theorem close_settles_by_rule_sample :
    ∃ w w' o, sampleRun sampleClosing.dropLast = some w ∧
      LnWorld.step sampleEnv w .resume = some w' ∧ getOrder "ord1" w'.db = some o ∧
      o.state = .paid ∧ ClosedByRule w' o LnCloseReason.paid.rule := by
  have hrun : (sampleRun sampleClosing.dropLast).any (fun w =>
      (getOrder "ord1" w.db).any (fun o => o.pendingClose = some .paid) &&
      (LnWorld.step sampleEnv w .resume).any fun w' => (getOrder "ord1" w'.db).any fun o =>
        o.pendingClose = none ∧ o.state = .paid) = true := by decide +kernel
  simp only [Option.any_eq_true, Bool.and_eq_true, decide_eq_true_eq] at hrun
  obtain ⟨w, hw, ⟨o, ho, hpc⟩, w', hs, o', ho', hend, hstate⟩ := hrun
  refine ⟨w, w', o', hw, hs, ho', hstate, ?_⟩
  rcases close_settles_by_rule (reachable_of_sampleRun hw) hs ho hpc ho' hend with h | h
  · exact h.2.2.2.2
  · -- the closing of an abandoned order leaves the state as it was
    have hc := (sound_of_reachable (reachable_of_sampleRun hw)).ledger.order _ o ho |>.closing _ hpc
    rw [h.order] at hstate
    rw [show o.state = .paid from hstate] at hc
    cases hc

/-- The order is cancelled while its escrow is still to be made. -/
def sampleCancelled : List LnInput :=
  sampleOpening.take 3 ++ [.request .cancelRequest (sampleEvent 'a' samplePubkey_a []) none,
    .start (.own (.close "ord1")), .serve .none "", .resume]

/-- **Not every invoice of a closed order has ended on the node**: one that was never made there is
on record as cancelled. -/
theorem closed_without_invoice :
    ∃ w o r, sampleRun sampleCancelled = some w ∧ getOrder "ord1" w.db = some o ∧
      o.state = LnCloseReason.cancelCustomerAfterClaim.rule.terminal ∧
      o.closeReason = some .cancelCustomerAfterClaim ∧
      w.db.holds.find sampleEscrow = some r ∧ r.orderId = "ord1" ∧ r.purpose = .lnEscrow ∧
      ¬ ∃ inv, w.node sampleEscrow = some inv ∧
        (inv.state = .settled ∨ inv.state = .cancelled) := by
  have hrun : (sampleRun sampleCancelled).any (fun w =>
      (getOrder "ord1" w.db).any (fun o => o.state = .cancelled ∧
        o.closeReason = some .cancelCustomerAfterClaim) &&
      (w.db.holds.find sampleEscrow).any (fun r => r.orderId = "ord1" ∧ r.purpose = .lnEscrow) &&
      w.node sampleEscrow = none) = true := by decide +kernel
  simp only [Option.any_eq_true, Bool.and_eq_true, decide_eq_true_eq] at hrun
  obtain ⟨w, hw, ⟨⟨o, ho, hs, hr⟩, r, hrow, hid, hp⟩, hnode⟩ := hrun
  refine ⟨w, o, r, hw, ho, hs, hr, hrow, hid, hp, ?_⟩
  rintro ⟨inv, hinv, -⟩
  rw [hnode] at hinv
  cases hinv

end LnPay
