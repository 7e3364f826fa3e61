/-
# Orders that have ended, and versions

An order that has ended stays as it is, whatever is requested, commanded or
observed afterwards.  One thing may still be done to it: an objection against the
account is resolved, once, and the kind of the refund says whose fault it was.

A version stands for one state of an order: between two moments at which the
version is the same, nothing has changed.  The checks of commands and of the
watcher's answers rest on that.
-/
import LnPay.OcTerminals

namespace LnPay

variable {P : Type}

/-! ## What may happen to an order that has ended -/

/-- The ways in which an order that has ended goes on. -/
inductive EndNext (r r' : OcRow) : Prop
  | same (hk : r'.order.settlementKind = r.order.settlementKind) (hv : r'.version = r.version)
  | resolved (hs : r.order.state = .refunded)
      (hk : r.order.settlementKind = some .refundAccountDisputed)
      (hk' : r'.order.settlementKind = some .refundCustomerLate ∨
        r'.order.settlementKind = some .refundSponsorTimeout)
      (hv : r'.version = r.version + 1)

/-- What is left of an order that has ended: all of it, but for the fault of an objection. -/
structure OcEnded (r r' : OcRow) : Prop where
  order : r'.order = { r.order with
    settlementKind := r'.order.settlementKind
    updatedAt := r'.order.updatedAt }
  record : r'.ocMeta.record = r.ocMeta.record
  next : EndNext r r'

theorem terminal_iff {s : OnchainState} : isOnchainTerminal s = true ↔
    s = .released ∨ s = .refunded ∨ s = .sponsorWins ∨ s = .customerWins ∨ s = .cancelled ∨
      s = .swept := by
  cases s <;> decide

/-- The watcher does nothing to an order that has ended. -/
theorem Judged.live (env : OcEnv P) (w : OcWorld) (i : OcInput) {o : OnchainOrder}
    (hend : isOnchainTerminal o.state = true) :
    ¬ Judged env w i o .confirmed ∧ ¬ Judged env w i o .cancel ∧
      ∀ txid leaf, ¬ Judged env w i o (.observeSpend txid leaf) := by
  rw [terminal_iff] at hend
  refine ⟨fun h => ?_, fun h => ?_, fun txid leaf h => ?_⟩
  · obtain ⟨ctx, hctx⟩ := h.decided
    have hs := confirmed_of_decide hctx
    simp [hs] at hend
  · obtain ⟨ctx, hctx⟩ := h.decided
    obtain hs | hs := early_of_cancel hctx <;> simp [hs] at hend
  · obtain ⟨ctx, hctx⟩ := h.decided
    obtain hs | hs | hs | hs | hs | hs := pinned_of_observeSpend hctx <;> simp [hs] at hend

/-- The state of an order that has ended stays. -/
theorem state_of_terminal {s t : OnchainState} (hend : isOnchainTerminal s = true)
    (hlegal : t = s ∨ canOnchainTransition s t = true) : t = s := by
  obtain rfl | hcan := hlegal
  · rfl
  · have hempty : onchainTransitions s = [] := List.isEmpty_iff.mp hend
    rw [canOnchainTransition, hempty] at hcan
    exact absurd hcan (by simp)

/-- One change of an order that has ended: only a resolution is possible. -/
theorem OcChange.ended {env : OcEnv P} {w : OcWorld} {i : OcInput} {o o' : OnchainOrder}
    {m m' : OcMeta} (h : OcChange (w.cause env i) o m o' m')
    (hlegal : o'.state = o.state ∨ canOnchainTransition o.state o'.state = true)
    (hend : isOnchainTerminal o.state = true) :
    m' = m ∧ o' = { o with settlementKind := o'.settlementKind } ∧ o.state = .refunded ∧
      o.settlementKind = some .refundAccountDisputed ∧
      (o'.settlementKind = some .refundCustomerLate ∨
        o'.settlementKind = some .refundSponsorTimeout) := by
  have hstate := state_of_terminal hend hlegal
  have hlive := Judged.live env w i hend
  -- a change that leaves another state leaves none that is an end
  have hopen : isOnchainTerminal o'.state = true := by rw [hstate]; exact hend
  cases h with
  | bond | fund | presig | remit | dispute | reorg | cosign | adopt =>
    exact absurd hopen (by simp [isOnchainTerminal, onchainTransitions])
  | account commitment hs => exact absurd hend (by rw [hs]; decide)
  | objection hs => exact absurd hend (by rw [hs]; decide)
  | decide kind feeSat fold o₁ hmay ho hb =>
    subst ho
    obtain ⟨-, hruling⟩ := mayDecide_state hmay
    dsimp only at hopen
    split at hopen
    · rename_i hr
      exact absurd hend (by rw [hruling hr]; decide)
    · exact absurd hopen (by decide)
  | cancel hs =>
    obtain hs | hact := hs
    · exact absurd hend (by rw [hs]; decide)
    · exact (hlive.2.1 hact).elim
  | sweep txid hact => exact (hlive.2.2 _ _ hact).elim
  | confirmed kind hk hact => exact (hlive.1 hact).elim
  | resolve kind hk hkind hs hres =>
    refine ⟨rfl, rfl, ?_, hk, hkind.imp (congrArg some) (congrArg some)⟩
    obtain hs | hs | hs := hs
    · exact absurd hend (by rw [hs]; decide)
    · exact absurd hend (by rw [hs]; decide)
    · exact hs

/-- One step of the row of an order that has ended. -/
theorem RowStep.ended {env : OcEnv P} {w : OcWorld} {i : OcInput} {r r' : OcRow}
    (h : RowStep (w.cause env i) r r') (hend : isOnchainTerminal r.order.state = true) :
    OcEnded r r' := by
  cases h with
  | noted ho hm hv => exact ⟨by rw [ho], hm, .same (by rw [ho]) hv⟩
  | changed o' hchange hlegal ho hv =>
    obtain ⟨hm, ho', hs, hk, hk'⟩ := hchange.ended hlegal hend
    refine ⟨?_, hm, .resolved hs hk (by rw [ho]; exact hk') hv⟩
    rw [ho]
    unfold OnchainOrder.restamp
    rw [ho']

theorem OcEnded.refl (r : OcRow) : OcEnded r r := ⟨rfl, rfl, .same rfl rfl⟩

theorem OcEnded.state {r r' : OcRow} (h : OcEnded r r') : r'.order.state = r.order.state := by
  rw [h.order]

/-- An objection is resolved once. -/
theorem OcEnded.trans {a b d : OcRow} (h : OcEnded a b) (h' : OcEnded b d) : OcEnded a d where
  order := by
    rw [h'.order, h.order]
  record := h'.record.trans h.record
  next := by
    cases h'.next with
    | same hk' hv' =>
      cases h.next with
      | same hk hv => exact .same (hk'.trans hk) (hv'.trans hv)
      | resolved hs hk hnew hv => exact .resolved hs hk (by rwa [hk']) (by rw [hv', hv])
    | resolved hs' hk' hnew' hv' =>
      cases h.next with
      | same hk hv => exact .resolved (h.state ▸ hs') (hk ▸ hk') hnew' (by rw [hv', hv])
      | resolved hs hk hnew hv =>
        obtain hnew | hnew := hnew <;> exact absurd (hk'.symm.trans hnew) (by simp)

/-- **An order that has ended stays as it is**, however a run goes on: its state, its terms, its
transaction and its private part but for the daemon's own notes, and its version too unless an
objection is resolved. -/
theorem ended_is_final (env : OcEnv P) {w w' : OcWorld} {is : List OcInput}
    (hrun : (ocSystem env).run w is = some w') {id : OrderId} {r : OcRow}
    (hr : getOc id w.db = some r) (hend : isOnchainTerminal r.order.state = true) :
    ∃ r', getOc id w'.db = some r' ∧ OcEnded r r' := by
  induction is generalizing w r with
  | nil =>
    obtain rfl := Option.some.inj hrun
    exact ⟨r, hr, .refl r⟩
  | cons i is ih =>
    obtain ⟨w₁, hstep, hrun⟩ := Option.bind_eq_some_iff.mp hrun
    obtain ⟨r₁, hr₁, hrow⟩ := (step_next hstep).row hr
    have hnext := hrow.ended hend
    obtain ⟨r', hr', hended⟩ := ih hrun hr₁ (by rw [hnext.state]; exact hend)
    exact ⟨r', hr', hnext.trans hended⟩

/-- A day after the sweep the order is polled, and an objection is commanded to be resolved. -/
def afterSweep : List OcInput :=
  [.tick 86400, .poll, .command (.accountDispute true) "trade-1" 4 none]

theorem afterSweep_run : ∃ w r w' r',
    (ocSystem tradeEnv).run (OcWorld.init 0) sweepInputs = some w ∧ getOc "trade-1" w.db = some r ∧
      (ocSystem tradeEnv).run w afterSweep = some w' ∧ getOc "trade-1" w'.db = some r' ∧
      r.order.state = .swept ∧ r'.version = r.version := by
  have hrun : ((ocSystem tradeEnv).run (OcWorld.init 0) sweepInputs).bind (fun w =>
      (getOc "trade-1" w.db).bind fun r => ((ocSystem tradeEnv).run w afterSweep).bind fun w' =>
        (getOc "trade-1" w'.db).map fun r' => decide (r.order.state = .swept ∧
          r'.version = r.version)) = some true := by
    decide +kernel
  obtain ⟨w, hw, hrest⟩ := Option.bind_eq_some_iff.mp hrun
  obtain ⟨r, hr, hrest⟩ := Option.bind_eq_some_iff.mp hrest
  obtain ⟨w', hw', hrest⟩ := Option.bind_eq_some_iff.mp hrest
  obtain ⟨r', hr', hfacts⟩ := Option.map_eq_some_iff.mp hrest
  exact ⟨w, r, w', r', hw, hr, hw', hr', of_decide_eq_true hfacts⟩

theorem ended_is_final_swept : ∃ w r w' r',
    (ocSystem tradeEnv).run (OcWorld.init 0) sweepInputs = some w ∧ getOc "trade-1" w.db = some r ∧
      r.order.state = .swept ∧ (ocSystem tradeEnv).run w afterSweep = some w' ∧
      getOc "trade-1" w'.db = some r' ∧ OcEnded r r' := by
  obtain ⟨w, r, w', -, hw, hr, hw', -, hs, -⟩ := afterSweep_run
  obtain ⟨r', hr', hended⟩ := ended_is_final tradeEnv hw' hr (by rw [hs]; rfl)
  exact ⟨w, r, w', r', hw, hr, hs, hw', hr', hended⟩

/-! ## Versions -/

/-- A version that stays says that nothing has changed. -/
theorem RowStep.version {c : OcCause} {r r' : OcRow} (h : RowStep c r r') :
    r.version ≤ r'.version ∧ (r'.version = r.version → r'.core = r.core) := by
  cases h with
  | noted ho hm hv =>
    refine ⟨hv.ge, fun _ => ?_⟩
    unfold OcRow.core
    rw [hm, ← ho, ← hv]
  | changed o' hchange hlegal ho hv => exact ⟨by omega, fun hsame => by omega⟩

/-- **A version names a state**: versions only grow, and between two moments with the same version
nothing of an order has changed but the daemon's notes. -/
theorem version_names_state (env : OcEnv P) {w w' : OcWorld} {is : List OcInput}
    (hrun : (ocSystem env).run w is = some w') {id : OrderId} {r : OcRow}
    (hr : getOc id w.db = some r) : ∃ r', getOc id w'.db = some r' ∧ r.version ≤ r'.version ∧
      (r'.version = r.version → r'.core = r.core) := by
  induction is generalizing w r with
  | nil =>
    obtain rfl := Option.some.inj hrun
    exact ⟨r, hr, le_refl _, fun _ => rfl⟩
  | cons i is ih =>
    obtain ⟨w₁, hstep, hrun⟩ := Option.bind_eq_some_iff.mp hrun
    obtain ⟨r₁, hr₁, hrow⟩ := (step_next hstep).row hr
    obtain ⟨hle, hcore⟩ := hrow.version
    obtain ⟨r', hr', hle', hcore'⟩ := ih hrun hr₁
    refine ⟨r', hr', hle.trans hle', fun hsame => ?_⟩
    have hfirst : r₁.version = r.version := le_antisymm (hsame ▸ hle') hle
    exact (hcore' (hsame.trans hfirst.symm)).trans (hcore hfirst)

theorem version_names_state_swept : ∃ w r w' r',
    (ocSystem tradeEnv).run (OcWorld.init 0) sweepInputs = some w ∧ getOc "trade-1" w.db = some r ∧
      (ocSystem tradeEnv).run w afterSweep = some w' ∧ getOc "trade-1" w'.db = some r' ∧
      r'.core = r.core := by
  obtain ⟨w, r, w', r', hw, hr, hw', hr', -, hsame⟩ := afterSweep_run
  obtain ⟨r₁, hr₁, -, hcore⟩ := version_names_state tradeEnv hw' hr
  obtain rfl := Option.some.inj (hr₁.symm.trans hr')
  exact ⟨w, r, w', r₁, hw, hr, hw', hr', hcore hsame⟩

end LnPay
