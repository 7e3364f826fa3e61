/-
# The hold table agrees with the node

* The node only moves forward (`LnNode.Later`), so what an answered lookup says
  (`LookupFact`) and how an invoice has ended (`Ended`) stay true.
* The table agrees with the node (`Agrees`): an invoice on record as settled is
  settled there, one on record as cancelled is cancelled there or was never made.
* Every write to the table is a `HoldStep`, which moves a status forward and
  keeps the agreement; `observe`, `createDone` and `recordDisposal` consist of
  such steps and of the track's hooks.
-/
import LnPay.HoldLaws

namespace LnPay

variable {T E : Type}

/-! ## The node moves forward -/

/-- Where an invoice on the node can still go. -/
def HoldState.reaches : HoldState → HoldState → Prop
  | .opened, _ => True
  | .accepted, t => t ≠ .opened
  | .settled, t => t = .settled
  | .cancelled, t => t = .cancelled

theorem HoldState.reaches_refl (s : HoldState) : s.reaches s := by
  cases s <;> simp [reaches]

theorem HoldState.reaches_trans {s t u : HoldState} (h : s.reaches t) (h' : t.reaches u) :
    s.reaches u := by
  cases s <;> cases t <;> cases u <;> simp_all [reaches]

/-- A later state of the node: every invoice is still there and has only moved forward; the time of
an acceptance stays. -/
def LnNode.Later (node node' : LnNode) : Prop :=
  ∀ h inv, node h = some inv → ∃ inv', node' h = some inv' ∧ inv.state.reaches inv'.state ∧
    (inv.state = .opened ∨ inv'.acceptedAt = inv.acceptedAt) ∧ inv'.bolt11 = inv.bolt11

theorem LnNode.Later.refl (node : LnNode) : node.Later node :=
  fun _ inv hinv => ⟨inv, hinv, inv.state.reaches_refl, .inr rfl, rfl⟩

theorem LnNode.later_set {node : LnNode} {h : Hash} {inv inv' : NodeInvoice}
    (hinv : node h = some inv) (hreach : inv.state.reaches inv'.state)
    (htime : inv.state = .opened ∨ inv'.acceptedAt = inv.acceptedAt)
    (hbolt : inv'.bolt11 = inv.bolt11) : node.Later (node.set h inv') := by
  intro h' i hi
  by_cases hh : h' = h
  · subst hh
    obtain rfl := Option.some.inj (hinv.symm.trans hi)
    exact ⟨inv', LnNode.set_self _ _ _, hreach, htime, hbolt⟩
  · exact ⟨i, (LnNode.set_of_ne _ _ hh).trans hi, i.state.reaches_refl, .inr rfl, rfl⟩

/-- The one step that brings a new invoice to the node, under a hash it did not know. -/
theorem LnNode.addHoldInvoice_spec {node node' : LnNode} {h : Hash} {bolt11 : String}
    (hadd : node.addHoldInvoice h bolt11 = some node') :
    node h = none ∧ node' = node.set h ⟨⟨.opened, bolt11, none⟩, none⟩ := by
  unfold addHoldInvoice at hadd
  cases hn : node h with
  | none =>
    simp only [hn, Option.some.injEq] at hadd
    exact ⟨rfl, hadd.symm⟩
  | some inv => simp [hn] at hadd

theorem LnNode.settleInvoice_spec {node node' : LnNode} {h : Hash}
    (hs : node.settleInvoice h = some node') :
    ∃ inv, node h = some inv ∧ (inv.state = .accepted ∨ inv.state = .settled) ∧
      node' = node.set h { inv with state := .settled } := by
  unfold settleInvoice at hs
  split at hs
  · rename_i inv hinv
    split at hs
    · rename_i hst
      exact ⟨inv, hinv, .inl hst, (Option.some.inj hs).symm⟩
    · rename_i hst
      exact ⟨inv, hinv, .inr hst, (Option.some.inj hs).symm⟩
    · cases hs
  · cases hs

theorem LnNode.cancelInvoice_spec {node node' : LnNode} {h : Hash}
    (hc : node.cancelInvoice h = some node') :
    ∃ inv, node h = some inv ∧ inv.state ≠ .settled ∧
      node' = node.set h { inv with state := .cancelled, htlcExpiryHeight := none } := by
  unfold cancelInvoice at hc
  split at hc
  · rename_i inv hinv
    split at hc
    · cases hc
    · rename_i hst
      exact ⟨inv, hinv, hst, (Option.some.inj hc).symm⟩
  · cases hc

theorem LnNode.accept_spec {node node' : LnNode} {h : Hash} {height : ℕ} {now : ℤ}
    (ha : node.accept h height now = some node') :
    ∃ inv, node h = some inv ∧ inv.state = .opened ∧ node' = node.set h { inv with
      state := .accepted, htlcExpiryHeight := some height, acceptedAt := some now } := by
  unfold accept at ha
  split at ha
  · rename_i inv hinv
    split at ha
    · rename_i hst
      exact ⟨inv, hinv, hst, (Option.some.inj ha).symm⟩
    · cases ha
  · cases ha

theorem LnNode.expire_spec {node node' : LnNode} {h : Hash} (he : node.expire h = some node') :
    ∃ inv, node h = some inv ∧ (inv.state = .opened ∨ inv.state = .accepted) ∧
      node' = node.set h { inv with state := .cancelled, htlcExpiryHeight := none } := by
  unfold expire at he
  split at he
  · rename_i inv hinv
    split at he
    · rename_i hst
      exact ⟨inv, hinv, hst, (Option.some.inj he).symm⟩
    · cases he
  · cases he

theorem LnNode.later_accept {node node' : LnNode} {h : Hash} {height : ℕ} {now : ℤ}
    (ha : node.accept h height now = some node') : node.Later node' := by
  obtain ⟨inv, hinv, hst, rfl⟩ := accept_spec ha
  exact later_set hinv (by simp [hst, HoldState.reaches]) (.inl hst) rfl

theorem LnNode.later_expire {node node' : LnNode} {h : Hash} (he : node.expire h = some node') :
    node.Later node' := by
  obtain ⟨inv, hinv, hst, rfl⟩ := expire_spec he
  refine later_set hinv ?_ (.inr rfl) rfl
  rcases hst with hst | hst <;> simp [hst, HoldState.reaches]

/-- Whatever the node performs, it only moves forward. -/
theorem LnNode.later_perform {node node' : LnNode} {bolt11 : String} {call : NodeCall}
    {a : NodeAnswer} (hp : node.perform bolt11 call = some (node', a)) : node.Later node' := by
  cases call with
  | lookupInvoice h =>
    simp only [perform, Option.some.injEq, Prod.mk.injEq] at hp
    exact hp.1 ▸ Later.refl node
  | addHoldInvoice h =>
    simp only [perform] at hp
    split at hp
    · cases hp
    · simp only [Option.map_eq_some_iff, Prod.mk.injEq] at hp
      obtain ⟨n, hn, rfl, -⟩ := hp
      obtain ⟨hnone, rfl⟩ := addHoldInvoice_spec hn
      intro h' inv hinv
      have hne : h' ≠ h := by
        rintro rfl
        rw [hnone] at hinv
        cases hinv
      exact ⟨inv, (set_of_ne _ _ hne).trans hinv, inv.state.reaches_refl, .inr rfl, rfl⟩
  | settleInvoice h =>
    simp only [perform, Option.map_eq_some_iff, Prod.mk.injEq] at hp
    obtain ⟨n, hn, rfl, -⟩ := hp
    obtain ⟨inv, hinv, hst, rfl⟩ := settleInvoice_spec hn
    refine later_set hinv ?_ (.inr rfl) rfl
    rcases hst with hst | hst <;> simp [hst, HoldState.reaches]
  | cancelInvoice h =>
    simp only [perform, Option.map_eq_some_iff, Prod.mk.injEq] at hp
    obtain ⟨n, hn, rfl, -⟩ := hp
    obtain ⟨inv, hinv, hst, rfl⟩ := cancelInvoice_spec hn
    refine later_set hinv ?_ (.inr rfl) rfl
    cases hs : inv.state <;> simp_all [HoldState.reaches]

theorem LnNode.later_serve (node : LnNode) (fault : Fault) (bolt11 : String) (call : NodeCall) :
    node.Later (node.serve fault bolt11 call).1 := by
  cases hp : node.perform bolt11 call with
  | none => cases fault <;> simp [serve, hp, Later.refl]
  | some r =>
    cases fault with
    | none => simpa [serve, hp] using later_perform hp
    | lostRequest => simp [serve, Later.refl]
    | lostAnswer => simpa [serve, hp] using later_perform hp

/-- A call other than `addHoldInvoice` brings no invoice to the node. -/
theorem LnNode.none_of_perform {node node' : LnNode} {bolt11 : String} {call : NodeCall}
    {a : NodeAnswer} {h : Hash} (hcall : call ≠ .addHoldInvoice h) (hnone : node h = none)
    (hp : node.perform bolt11 call = some (node', a)) : node' h = none := by
  have hset : ∀ {h' : Hash} {inv inv' : NodeInvoice}, node h' = some inv →
      (node.set h' inv') h = none := by
    intro h' inv inv' hinv
    have hne : h ≠ h' := by
      rintro rfl
      rw [hnone] at hinv
      cases hinv
    rw [set_of_ne _ _ hne, hnone]
  cases call with
  | lookupInvoice h' =>
    simp only [perform, Option.some.injEq, Prod.mk.injEq] at hp
    exact hp.1 ▸ hnone
  | addHoldInvoice h' =>
    simp only [perform] at hp
    split at hp
    · cases hp
    · simp only [Option.map_eq_some_iff, Prod.mk.injEq] at hp
      obtain ⟨n, hn, rfl, -⟩ := hp
      obtain ⟨-, rfl⟩ := addHoldInvoice_spec hn
      rw [set_of_ne _ _ (fun he => hcall (by rw [he])), hnone]
  | settleInvoice h' =>
    simp only [perform, Option.map_eq_some_iff, Prod.mk.injEq] at hp
    obtain ⟨n, hn, rfl, -⟩ := hp
    obtain ⟨inv, hinv, -, rfl⟩ := settleInvoice_spec hn
    exact hset hinv
  | cancelInvoice h' =>
    simp only [perform, Option.map_eq_some_iff, Prod.mk.injEq] at hp
    obtain ⟨n, hn, rfl, -⟩ := hp
    obtain ⟨inv, hinv, -, rfl⟩ := cancelInvoice_spec hn
    exact hset hinv

theorem LnNode.none_of_serve {node : LnNode} {fault : Fault} {bolt11 : String} {call : NodeCall}
    {h : Hash} (hcall : call ≠ .addHoldInvoice h) (hnone : node h = none) :
    (node.serve fault bolt11 call).1 h = none := by
  cases hp : node.perform bolt11 call with
  | none => cases fault <;> simp [serve, hp, hnone]
  | some r =>
    cases fault with
    | none => simpa [serve, hp] using none_of_perform hcall hnone hp
    | lostRequest => simp [serve, hnone]
    | lostAnswer => simpa [serve, hp] using none_of_perform hcall hnone hp

/-! ## What an answer says -/

/-- What a lookup has said about an invoice, as far as it stays true. -/
def LookupFact (node : LnNode) (h : Hash) : Option HoldLookup → Prop
  | none => node h = none
  | some l => ∃ inv, node h = some inv ∧ l.state.reaches inv.state ∧ l.bolt11 = inv.bolt11

/-- An invoice has ended on the node: settled there, or cancelled there or never made. -/
def Ended (node : LnNode) (h : Hash) : HoldFinal → Prop
  | .settled => ∃ inv, node h = some inv ∧ inv.state = .settled
  | .cancelled => ∀ inv, node h = some inv → inv.state = .cancelled

theorem lookupFact_self (node : LnNode) (h : Hash) : LookupFact node h (node.lookupInvoice h) := by
  unfold LnNode.lookupInvoice
  cases hn : node h with
  | none => exact hn
  | some inv => exact ⟨inv, hn, inv.state.reaches_refl, rfl⟩

theorem LookupFact.later {node node' : LnNode} {h : Hash} {l : HoldLookup}
    (hf : LookupFact node h (some l)) (hl : node.Later node') : LookupFact node' h (some l) := by
  obtain ⟨inv, hinv, hreach, hbolt⟩ := hf
  obtain ⟨inv', hinv', hreach', -, hbolt'⟩ := hl h inv hinv
  exact ⟨inv', hinv', HoldState.reaches_trans hreach hreach', hbolt.trans hbolt'.symm⟩

/-- An end is for good, as long as the hash is not made anew. -/
theorem Ended.later {node node' : LnNode} {h : Hash} {f : HoldFinal} (he : Ended node h f)
    (hl : node.Later node') (hnew : node h = none → node' h = none) : Ended node' h f := by
  cases f with
  | settled =>
    obtain ⟨inv, hinv, hst⟩ := he
    obtain ⟨inv', hinv', hreach, -⟩ := hl h inv hinv
    rw [hst] at hreach
    exact ⟨inv', hinv', hreach⟩
  | cancelled =>
    intro inv' hinv'
    cases hn : node h with
    | none => rw [hnew hn] at hinv'; cases hinv'
    | some inv =>
      obtain ⟨i, hi, hreach, -⟩ := hl h inv hn
      obtain rfl := Option.some.inj (hi.symm.trans hinv')
      rw [he inv hn] at hreach
      exact hreach

/-- What `settleOrCancel` returns without a call is how the invoice has ended. -/
theorem ended_of_settleOrCancel {node : LnNode} {h : Hash} {want : DisposeAction}
    {lookup : Option HoldLookup} {f : HoldFinal} (hf : LookupFact node h lookup)
    (hs : settleOrCancel want lookup = .final f) : Ended node h f := by
  cases lookup with
  | none =>
    cases hs
    intro inv hinv
    rw [show node h = none from hf] at hinv
    cases hinv
  | some l =>
    obtain ⟨inv, hinv, hreach, -⟩ := hf
    simp only [settleOrCancel] at hs
    cases hl : l.state with
    | opened => simp [hl] at hs
    | accepted =>
      simp only [hl] at hs
      split at hs <;> cases hs
    | settled =>
      simp only [hl, Settling.final.injEq] at hs
      subst hs
      rw [hl] at hreach
      exact ⟨inv, hinv, hreach⟩
    | cancelled =>
      simp only [hl, Settling.final.injEq] at hs
      subst hs
      rw [hl] at hreach
      intro i hi
      obtain rfl := Option.some.inj (hinv.symm.trans hi)
      exact hreach

/-- `settleOrCancel` settles only what was wanted. -/
theorem settle_wanted {want : DisposeAction} {lookup : Option HoldLookup}
    (hs : settleOrCancel want lookup = .call .settled) : want = .settle := by
  cases lookup with
  | none => cases hs
  | some l =>
    simp only [settleOrCancel] at hs
    cases hl : l.state <;> simp only [hl] at hs
    all_goals first
      | cases hs
      | (split at hs
         · assumption
         · cases hs)

/-- A disposal the node has carried out ends the invoice. -/
theorem ended_of_perform {node node' : LnNode} {bolt11 : String} {h : Hash} {f : HoldFinal}
    {a : NodeAnswer} (hp : node.perform bolt11 (f.call h) = some (node', a)) : Ended node' h f := by
  cases f with
  | settled =>
    simp only [HoldFinal.call, LnNode.perform, Option.map_eq_some_iff, Prod.mk.injEq] at hp
    obtain ⟨n, hn, rfl, -⟩ := hp
    obtain ⟨inv, -, -, rfl⟩ := LnNode.settleInvoice_spec hn
    exact ⟨_, LnNode.set_self _ _ _, rfl⟩
  | cancelled =>
    simp only [HoldFinal.call, LnNode.perform, Option.map_eq_some_iff, Prod.mk.injEq] at hp
    obtain ⟨n, hn, rfl, -⟩ := hp
    obtain ⟨inv, -, -, rfl⟩ := LnNode.cancelInvoice_spec hn
    intro i hi
    rw [LnNode.set_self] at hi
    exact (Option.some.inj hi) ▸ rfl

/-! ## Agreement -/

/-- A row agrees with the node. -/
def Agrees (node : LnNode) (r : HoldRow) : Prop :=
  match r.status with
  | .creating => True
  | .opened => ∃ inv, node r.paymentHash = some inv
  | .accepted => ∃ inv, node r.paymentHash = some inv ∧ inv.state ≠ .opened
  | .settled => Ended node r.paymentHash .settled
  | .cancelled => Ended node r.paymentHash .cancelled

/-- The table agrees with the node. -/
def HoldsAgree (node : LnNode) (holds : KeyedTable HoldRow.paymentHash) : Prop :=
  ∀ h r, holds.find h = some r → Agrees node r

theorem Agrees.later {node node' : LnNode} {r : HoldRow} (ha : Agrees node r)
    (hl : node.Later node')
    (hnew : r.status = .cancelled → node r.paymentHash = none → node' r.paymentHash = none) :
    Agrees node' r := by
  unfold Agrees at *
  split at ha
  · trivial
  · obtain ⟨inv, hinv⟩ := ha
    obtain ⟨inv', hinv', -⟩ := hl _ inv hinv
    exact ⟨inv', hinv'⟩
  · obtain ⟨inv, hinv, hst⟩ := ha
    obtain ⟨inv', hinv', hreach, -⟩ := hl _ inv hinv
    refine ⟨inv', hinv', ?_⟩
    cases hs : inv.state <;> simp_all [HoldState.reaches]
  · refine ha.later hl fun hn => ?_
    obtain ⟨inv, hinv, -⟩ := ha
    rw [hn] at hinv
    cases hinv
  · rename_i hs
    exact ha.later hl (hnew hs)

/-- A row agrees once the end of its invoice is written into it. -/
theorem Ended.agrees {node : LnNode} {r : HoldRow} {f : HoldFinal}
    (he : Ended node r.paymentHash f) (hs : r.status = f.status) : Agrees node r := by
  cases f <;> simp only [Agrees, hs, HoldFinal.status] <;> exact he

/-- An invoice ends in one way only. -/
theorem Ended.unique {node : LnNode} {h : Hash} {f f' : HoldFinal} (he : Ended node h f)
    (he' : Ended node h f') (hsome : f = .settled ∨ f' = .settled) : f = f' := by
  have key : Ended node h .settled → ¬ Ended node h .cancelled := by
    rintro ⟨inv, hinv, hst⟩ hc
    rw [hc inv hinv] at hst
    cases hst
  cases f <;> cases f'
  · rfl
  · exact absurd he' (key he)
  · exact absurd he (key he')
  · rfl

/-! ## Writes to the table -/

/-- How far a status is along. -/
def HoldStatus.rank : HoldStatus → ℕ
  | .creating => 0
  | .opened => 1
  | .accepted => 2
  | .settled | .cancelled => 3

/-- A status moves forward or stays. -/
def HoldStatus.mayBecome (s t : HoldStatus) : Prop := s = t ∨ s.rank < t.rank

theorem HoldStatus.mayBecome_trans {s t u : HoldStatus} (h : s.mayBecome t) (h' : t.mayBecome u) :
    s.mayBecome u := by
  rcases h with rfl | h
  · exact h'
  · rcases h' with rfl | h'
    · exact .inr h
    · exact .inr (h.trans h')

/-- One write to the table: the row under a hash is patched, its status moves forward, and the new
row agrees with the node.  `touch` says which rows may be written, and to what. -/
def HoldStep (node : LnNode) (now : ℤ) (touch : HoldRow → HoldRow → Prop) (db db' : Db T E) :
    Prop :=
  ∃ r patch, db.holds.find r.paymentHash = some r ∧ touch r (r.patched patch now) ∧
    r.status.mayBecome (r.patched patch now).status ∧ Agrees node (r.patched patch now) ∧
    db' = setHold now r.paymentHash patch db

/-- A later version of a row: the plan is the same, the status has moved forward. -/
structure HoldRow.Later (r r' : HoldRow) : Prop where
  paymentHash : r'.paymentHash = r.paymentHash
  purpose : r'.purpose = r.purpose
  orderId : r'.orderId = r.orderId
  party : r'.party = r.party
  attempt : r'.attempt = r.attempt
  amountSat : r'.amountSat = r.amountSat
  payBy : r'.payBy = r.payBy
  status : r.status.mayBecome r'.status

theorem HoldRow.Later.refl (r : HoldRow) : r.Later r := ⟨rfl, rfl, rfl, rfl, rfl, rfl, rfl, .inl rfl⟩

theorem HoldRow.Later.trans {r r' r'' : HoldRow} (h : r.Later r') (h' : r'.Later r'') :
    r.Later r'' :=
  ⟨h'.1.trans h.1, h'.2.trans h.2, h'.3.trans h.3, h'.4.trans h.4, h'.5.trans h.5, h'.6.trans h.6,
    h'.7.trans h.7, HoldStatus.mayBecome_trans h.8 h'.8⟩

/-- A write leaves every row in place, as a later version. -/
theorem HoldStep.find_later {node : LnNode} {now : ℤ} {touch : HoldRow → HoldRow → Prop}
    {db db' : Db T E} {h : Hash} {r : HoldRow} (hs : HoldStep node now touch db db')
    (hr : db.holds.find h = some r) : ∃ r', db'.holds.find h = some r' ∧ r.Later r' := by
  obtain ⟨s, patch, hs, -, hbecome, -, rfl⟩ := hs
  rw [find_setHold]
  split
  · rename_i he
    subst he
    obtain rfl := Option.some.inj (hs.symm.trans hr)
    rw [hr]
    exact ⟨_, rfl, rfl, rfl, rfl, rfl, rfl, rfl, rfl, hbecome⟩
  · exact ⟨r, hr, .refl r⟩

/-- The rows after a write: as before, or the patched one. -/
theorem HoldStep.find_cases {node : LnNode} {now : ℤ} {touch : HoldRow → HoldRow → Prop}
    {db db' : Db T E} {h : Hash} {r' : HoldRow} (hs : HoldStep node now touch db db')
    (hr' : db'.holds.find h = some r') :
    db.holds.find h = some r' ∨
      ∃ r, db.holds.find h = some r ∧ r.Later r' ∧ touch r r' ∧ Agrees node r' := by
  obtain ⟨s, patch, hs, ht, hbecome, hag, rfl⟩ := hs
  rw [find_setHold] at hr'
  split at hr'
  · rename_i he
    subst he
    rw [hs] at hr'
    obtain rfl := Option.some.inj hr'
    exact .inr ⟨s, hs, ⟨rfl, rfl, rfl, rfl, rfl, rfl, rfl, hbecome⟩, ht, hag⟩
  · exact .inl hr'

/-- An invoice whose end is on record. -/
def HoldRow.Final (r : HoldRow) : Prop := r.status = .settled ∨ r.status = .cancelled

/-- An end on record stays as it is. -/
theorem HoldRow.Later.status_of_final {r r' : HoldRow} (h : r.Later r') (hf : r.Final) :
    r'.status = r.status := by
  rcases h.status with hs | hs
  · exact hs.symm
  · rcases hf with hf | hf <;> rw [hf] at hs <;> cases hs' : r'.status <;>
      simp [hs', HoldStatus.rank] at hs

theorem HoldRow.Final.later {r r' : HoldRow} (hf : r.Final) (h : r.Later r') : r'.Final := by
  unfold HoldRow.Final
  rw [h.status_of_final hf]
  exact hf

/-- `recordDisposal` of an invoice that has ended is a step and the hook, or nothing. -/
theorem leads_recordDisposal {R : Db T E → Db T E → Prop} {hooks : HoldHooks T E} {node : LnNode}
    {now : ℤ} {touch : HoldRow → HoldRow → Prop} {h : Hash} {final : HoldFinal} {via : DisposedVia}
    {db : Db T E} (hR : ∀ a b : Db T E, HoldStep node now touch a b → R a b)
    (hagree : HoldsAgree node db.holds) (hend : Ended node h final)
    (htouch : ∀ r r', db.holds.find h = some r → r'.status = final.status →
      r'.htlcExpiryHeight = r.htlcExpiryHeight → touch r r')
    (hhook : ∀ r db', db.holds.find h = some r → db'.track = db.track →
      db'.effects = db.effects → Leads R db' (hooks.disposed r final via db')) :
    Leads R db (recordDisposal hooks now h final via db) := by
  unfold recordDisposal
  cases hf : db.holds.find h with
  | none => exact .refl
  | some r =>
    obtain rfl := KeyedTable.key_of_find hf
    refine .ite (fun _ => .refl) fun hne => .head (hR _ _ ?_) (hhook r _ hf rfl rfl)
    refine ⟨r, _, hf, htouch r _ hf rfl rfl, ?_, ?_, rfl⟩
    · right
      have hag := hagree _ _ hf
      -- an invoice on record as ended has ended in this very way
      have hdone : r.status ≠ .settled ∧ r.status ≠ .cancelled := by
        constructor
        · intro hs
          rw [Agrees, hs] at hag
          have := hag.unique hend (.inl rfl)
          exact hne (by rw [hs, ← this]; rfl)
        · intro hs
          rw [Agrees, hs] at hag
          cases final with
          | settled => exact absurd (hag.unique hend (.inr rfl)) (by decide)
          | cancelled => exact hne hs
      cases hs : r.status <;> cases final <;>
        simp_all [HoldRow.patched, HoldStatus.rank, HoldFinal.status]
    · exact Ended.agrees hend (by simp [HoldRow.patched])

/-- What the run of `hold.create` has returned, as far as it stays true. -/
def CreateFact (node : LnNode) (h : Hash) : HoldResult → Prop
  | .created (some bolt11) => bolt11 ≠ "" ∧ ∃ inv, node h = some inv
  | .created none => True
  | _ => node h = none

/-- `createDone` opens the invoice, or gives it up when the node does not have it. -/
theorem leads_createDone {R : Db T E → Db T E → Prop} {hooks : HoldHooks T E} {node : LnNode}
    {now : ℤ} {touch : HoldRow → HoldRow → Prop} {h : Hash} {result : HoldResult} {db : Db T E}
    (hR : ∀ a b : Db T E, HoldStep node now touch a b → R a b)
    (hfact : CreateFact node h result)
    (hnone : result = .created none → ∀ r, db.holds.find h = some r → r.status ≠ .creating)
    (htouch : ∀ r r', db.holds.find h = some r → r'.status = .opened ∨ r'.status = .cancelled →
      r'.htlcExpiryHeight = r.htlcExpiryHeight → touch r r')
    (hcreated : ∀ r r' db', db.holds.find h = some r → db'.track = db.track →
      db'.effects = db.effects → db'.holds.find h = some r' → r'.status = .opened →
      r'.paymentHash = h → Leads R db' (hooks.created r' db'))
    (hfailed : ∀ r db', db.holds.find h = some r → db'.track = db.track →
      db'.effects = db.effects →
      Leads R db' (hooks.createFailed (r.patched { status := some .cancelled } now) db')) :
    Leads R db (createDone hooks now h result db) := by
  unfold createDone
  cases hf : db.holds.find h with
  | none => exact .refl
  | some r =>
    obtain rfl := KeyedTable.key_of_find hf
    refine .ite (fun _ => .refl) fun hcr => ?_
    have hcr : r.status = .creating := not_not.mp hcr
    have hgiveUp : node r.paymentHash = none → Leads R db
        (hooks.createFailed (r.patched { status := some .cancelled } now)
          (setHold now r.paymentHash { status := some .cancelled } db)) := by
      intro hn
      refine .head (hR _ _ ⟨r, { status := some .cancelled }, hf, htouch r _ hf (.inr rfl) rfl, ?_,
        ?_, rfl⟩)
        (hfailed r _ hf rfl rfl)
      · exact .inr (by rw [hcr]; exact Nat.zero_lt_succ _)
      · refine Ended.agrees (f := .cancelled) (fun inv hinv => ?_) rfl
        rw [show node r.paymentHash = some inv from hinv] at hn
        cases hn
    match result, hfact, hnone with
    | .created (some bolt11), hfact, _ =>
      refine .ite (fun he => absurd he hfact.1) fun _ => ?_
      refine .head (hR _ _ ⟨r, { status := some .opened, bolt11 := some bolt11 }, hf,
        htouch r _ hf (.inl rfl) rfl, ?_, ?_, rfl⟩) (hcreated r _ (setHold now r.paymentHash
          { status := some .opened, bolt11 := some bolt11 } db) hf rfl rfl ?_ rfl rfl)
      · exact .inr (by rw [hcr]; exact Nat.zero_lt_succ _)
      · exact hfact.2
      · rw [find_setHold, if_pos rfl, hf]
        rfl
    | .created none, _, hnone => exact absurd hcr (hnone rfl r hf)
    | .tooLate, hfact, _ => exact hgiveUp hfact
    | .disposed _, hfact, _ => exact hgiveUp hfact

/-- A row that `observe` acts on. -/
def Observable (hooks : HoldHooks T E) [OwnEffect E] (db : Db T E) (r : HoldRow) : Prop :=
  (r.status = .opened ∨ r.status = .accepted) ∧ disposing r db = false ∧ hooks.busy r db = false

/-- Two rows that say the same but for the height and the time of the last write. -/
structure HoldRow.Same (r r' : HoldRow) : Prop where
  paymentHash : r'.paymentHash = r.paymentHash
  purpose : r'.purpose = r.purpose
  orderId : r'.orderId = r.orderId
  party : r'.party = r.party
  status : r'.status = r.status

/-- Noting the height leaves a ledger that differs in nothing else. -/
theorem noteHeight_spec {R : Db T E → Db T E → Prop} {node : LnNode} {now : ℤ}
    {touch : HoldRow → HoldRow → Prop} {db : Db T E} {r : HoldRow} {l : HoldLookup}
    (hR : ∀ a b : Db T E, HoldStep node now touch a b → R a b)
    (hf : db.holds.find r.paymentHash = some r) (hag : Agrees node r)
    (ht : ∀ r', r'.htlcExpiryHeight = l.htlcExpiryHeight → touch r r') :
    Relation.ReflTransGen R db (noteHeight now r l db) ∧
      (noteHeight now r l db).track = db.track ∧ (noteHeight now r l db).effects = db.effects ∧
      ∃ r', (noteHeight now r l db).holds.find r.paymentHash = some r' ∧ r.Same r' := by
  have hid : Relation.ReflTransGen R db db ∧ db.track = db.track ∧ db.effects = db.effects ∧
      ∃ r', db.holds.find r.paymentHash = some r' ∧ r.Same r' :=
    ⟨.refl, rfl, rfl, r, hf, rfl, rfl, rfl, rfl, rfl⟩
  unfold noteHeight
  split
  · rename_i height hl
    split
    · refine ⟨.single (hR _ _ ⟨r, { htlcExpiryHeight := some height }, hf, ht _ hl.symm, .inl rfl,
        hag, rfl⟩), rfl, rfl, r.patched { htlcExpiryHeight := some height } now, ?_, rfl, rfl, rfl, rfl, rfl⟩
      rw [find_setHold, if_pos rfl, hf]
      rfl
    · exact hid
  · exact hid

/-- `observe` writes what the lookup says about a live invoice that nobody is disposing of, and
runs the hook that belongs to it. -/
theorem leads_observe [OwnEffect E] {R : Db T E → Db T E → Prop} {hooks : HoldHooks T E}
    {node : LnNode} {now : ℤ} {touch : HoldRow → HoldRow → Prop} {h : Hash} {lookup : Option HoldLookup}
    {db : Db T E} (hR : ∀ a b : Db T E, HoldStep node now touch a b → R a b)
    (hagree : HoldsAgree node db.holds) (hfact : ∀ l, lookup = some l → LookupFact node h lookup)
    (htouch : ∀ r r' r'', db.holds.find h = some r → Observable hooks db r → r.Same r' →
      (r''.htlcExpiryHeight = r'.htlcExpiryHeight ∨
        ∃ l, lookup = some l ∧ r''.htlcExpiryHeight = l.htlcExpiryHeight) → touch r' r'')
    (haccepted : ∀ r db', db.holds.find h = some r → Observable hooks db r →
      db'.track = db.track → db'.effects = db.effects →
      ∀ r', r'.paymentHash = r.paymentHash → r'.purpose = r.purpose → r'.orderId = r.orderId →
        r'.party = r.party → Leads R db' (hooks.accepted r' db'))
    (hcancelled : ∀ r db', db.holds.find h = some r → Observable hooks db r →
      db'.track = db.track → db'.effects = db.effects →
      (∃ inv, node h = some inv ∧ inv.state = .cancelled) →
      Leads R db' (hooks.nodeCancelled r db')) :
    Leads R db (observe hooks now h lookup db) := by
  unfold observe
  cases hf : db.holds.find h with
  | none => exact .refl
  | some r =>
    obtain rfl := KeyedTable.key_of_find hf
    refine .ite (fun _ => .refl) fun hlive => .ite (fun _ => .refl) fun hfree => ?_
    have hlive : r.status = .opened ∨ r.status = .accepted := by tauto
    have hobs : Observable hooks db r := ⟨hlive, by simpa using hfree⟩
    cases lookup with
    | none => exact .refl
    | some l =>
      obtain ⟨inv, hinv, hreach, -⟩ := hfact l rfl
      obtain ⟨hsteps, htr, hef, r₁, hr₁, hsame⟩ := noteHeight_spec (l := l) hR hf (hagree _ _ hf)
        (fun r' hl => htouch r r r' hf hobs ⟨rfl, rfl, rfl, rfl, rfl⟩ (.inr ⟨l, rfl, hl⟩))
      -- the row can be written once more
      have hstep : ∀ s : HoldStatus, r.status.mayBecome s →
          Agrees node (r₁.patched { status := some s } now) →
          R (noteHeight now r l db)
            (setHold now r.paymentHash { status := some s } (noteHeight now r l db)) := by
        intro s hs hag
        rw [← hsame.paymentHash] at hr₁ ⊢
        exact hR _ _ ⟨r₁, _, hr₁, htouch r r₁ _ hf hobs hsame (.inl rfl), hsame.status ▸ hs,
          hag, rfl⟩
      have hinv₁ : node r₁.paymentHash = some inv := by rw [hsame.paymentHash]; exact hinv
      suffices Leads R (noteHeight now r l db)
          (noteState hooks now r l (noteHeight now r l db)) from
        fun s' hs' => hsteps.trans (this s' hs')
      unfold noteState
      refine .ite (fun hacc => ?_) fun _ => .ite (fun hset => ?_) fun _ => .ite (fun hcan => ?_)
        fun _ => .refl
      · refine .head (hstep .accepted (.inr (by rw [hacc.2]; decide)) ⟨inv, hinv₁, ?_⟩) ?_
        · rw [hacc.1] at hreach
          exact hreach
        · simp only [find_setHold, if_true, hr₁, Option.map_some]
          exact haccepted r (setHold now r.paymentHash { status := some .accepted } _) hf hobs htr hef
            (r₁.patched { status := some .accepted } now) hsame.paymentHash hsame.purpose
            hsame.orderId hsame.party
      · refine .single (hstep .settled (.inr ?_) ⟨inv, hinv₁, ?_⟩)
        · rcases hlive with h | h <;> rw [h] <;> decide
        · rw [hset] at hreach
          exact hreach
      · rw [hcan] at hreach
        refine .head (hstep .cancelled (.inr ?_) ?_) (hcancelled r _ hf hobs htr hef ⟨inv, hinv, hreach⟩)
        · rcases hlive with h | h <;> rw [h] <;> decide
        · intro i hi
          obtain rfl := Option.some.inj (hinv₁.symm.trans hi)
          exact hreach

end LnPay
