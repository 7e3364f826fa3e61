/-
# Lightning orders that have ended, and versions

An order that has ended stays as it is.  What may still come is the payout of an
order that was paid or won by the sponsor: its progress, and a new invoice when
the old one has run out.  The state, the reason, the parties, the amounts and the
deposits stay, whatever is requested, commanded or observed afterwards.

A version stands for one state of an order: every change raises it.
-/
import LnPay.LnSound

namespace LnPay

/-! ## One change -/

/-- What is left of an order that has ended: all of it, but for the progress of its payout. -/
structure LnEnded (o o' : LnOrderRow) : Prop where
  order : o' = { o with
    sponsorInvoice := o'.sponsorInvoice
    escrowSettled := o'.escrowSettled
    disbursed := o'.disbursed
    payoutError := o'.payoutError
    updatedAt := o'.updatedAt
    version := o'.version }
  disbursed : o.disbursed = true → o'.disbursed = true
  escrowSettled : o.escrowSettled = true → o'.escrowSettled = true
  invoice : o'.sponsorInvoice = o.sponsorInvoice ∨ (o.payable ∧ o.disbursed = false)

theorem LnEnded.refl (o : LnOrderRow) : LnEnded o o := ⟨rfl, id, id, .inl rfl⟩

theorem LnEnded.state {o o' : LnOrderRow} (h : LnEnded o o') : o'.state = o.state := by
  rw [h.order]

theorem LnEnded.pendingClose {o o' : LnOrderRow} (h : LnEnded o o') :
    o'.pendingClose = o.pendingClose := by
  rw [h.order]

theorem LnEnded.trans {a b d : LnOrderRow} (h : LnEnded a b) (h' : LnEnded b d) : LnEnded a d where
  order := by
    rw [h'.order, h.order]
  disbursed hd := h'.disbursed (h.disbursed hd)
  escrowSettled hs := h'.escrowSettled (h.escrowSettled hs)
  invoice := by
    obtain hi' | ⟨hp, hd⟩ := h'.invoice
    · obtain hi | hi := h.invoice
      · exact .inl (hi'.trans hi)
      · exact .inr hi
    · refine .inr ⟨by rwa [LnOrderRow.payable, h.state] at hp, ?_⟩
      cases hold : a.disbursed with
      | false => rfl
      | true => exact absurd ((h.disbursed hold).symm.trans hd) (by simp)

/-- One change of an order that has ended and is not being closed. -/
theorem OrderNext.lnEnded {c : EdgeCtx} {db : LnDb} {o o' : LnOrderRow} (hn : OrderNext c db o o')
    (hend : isTerminalState o.state = true) (hp : o.pendingClose = none) : LnEnded o o' := by
  have hempty : o.state.transitions = [] := of_decide_eq_true hend
  have hopen : ∀ s, o.state = s → s.transitions ≠ [] → False :=
    fun s hs hne => hne (hs ▸ hempty)
  cases hn with
  | same => exact .refl o
  | close reason _ ht =>
    rw [canTransition, hempty] at ht
    exact absurd ht (by simp)
  | step p hs =>
    cases hs with
    | claim _ hs => exact (hopen _ hs (by simp [OrderState.transitions])).elim
    | revert hs => exact (hopen _ hs (by simp [OrderState.transitions])).elim
    | approve _ _ hs => exact (hopen _ hs (by simp [OrderState.transitions])).elim
    | verify _ _ hs => exact (hopen _ hs (by simp [OrderState.transitions])).elim
    | unapprove hs => exact (hopen _ hs (by simp [OrderState.transitions])).elim
    | sponsorDeposit _ hs => exact (hopen _ hs (by simp [OrderState.transitions])).elim
    | escrowed _ hs => exact (hopen _ hs (by simp [OrderState.transitions])).elim
    | firstInvoice _ hs => exact (hopen _ hs (by simp [OrderState.transitions])).elim
    | replaceInvoice bolt11 hs =>
      obtain hs | hs | ⟨hpay, hd, -⟩ := hs
      · exact (hopen _ hs (by simp [OrderState.transitions])).elim
      · exact (hopen _ hs (by simp [OrderState.transitions])).elim
      · exact ⟨rfl, id, id, .inr ⟨hpay, hd⟩⟩
    | account _ _ hs =>
      obtain hs | hs := hs <;> exact (hopen _ hs (by simp [OrderState.transitions])).elim
    | remit hs => exact (hopen _ hs (by simp [OrderState.transitions])).elim
    | escrowSettled => exact ⟨rfl, id, fun _ => rfl, .inl rfl⟩
    | payoutError _ => exact ⟨rfl, id, id, .inl rfl⟩
    | payoutExpired _ _ => exact ⟨rfl, id, id, .inl rfl⟩
    | payoutManual _ => exact ⟨rfl, id, id, .inl rfl⟩
    | disbursed _ => exact ⟨rfl, fun _ => rfl, id, .inl rfl⟩
    | markDisbursed _ => exact ⟨rfl, fun _ => rfl, id, .inl rfl⟩
    | abandon _ hp' => exact absurd (hp.symm.trans hp') (by simp)
    | finish _ hp' => exact absurd (hp.symm.trans hp') (by simp)

/-- A change raises the version. -/
theorem OrderNext.version {c : EdgeCtx} {db : LnDb} {o o' : LnOrderRow} (hn : OrderNext c db o o') :
    o.version ≤ o'.version ∧ (o'.version = o.version → o' = o) := by
  cases hn with
  | same => exact ⟨le_refl _, fun _ => rfl⟩
  | step p hs => exact ⟨Nat.le_succ _, fun h => absurd h (Nat.succ_ne_self _)⟩
  | close reason => exact ⟨Nat.le_succ _, fun h => absurd h (Nat.succ_ne_self _)⟩

/-! ## Runs -/

section Runs

variable {env : LnEnv} {w w' : LnWorld} {is : List LnInput} {id : OrderId} {o : LnOrderRow}

/-- A relation that every change of a row meets, from rows that meet `P`, holds over a step. -/
theorem step_row {R : LnOrderRow → LnOrderRow → Prop} {P : LnOrderRow → Prop} {i : LnInput}
    (hrefl : ∀ o, R o o) (htrans : ∀ {a b d}, R a b → R b d → R a d) (hkeep : ∀ {a b}, P a → R a b → P b)
    (hnext : ∀ {c : EdgeCtx} {db : LnDb} {a b}, OrderNext c db a b → P a → R a b)
    (hw : (lnSystem env).Reachable w) (hs : LnWorld.step env w i = some w')
    (ho : getOrder id w.db = some o) (hP : P o) : ∃ o', getOrder id w'.db = some o' ∧ R o o' := by
  have hmoved := step_moved (sound_of_reachable hw) hs
  refine hmoved.keeps (P := fun db => ∃ o', getOrder id db = some o' ∧ R o o') ?_ ?_
    ⟨o, ho, hrefl o⟩
  · rintro a b hprep ⟨o', ho', hR⟩
    exact ⟨o', by rw [hprep.getOrder_eq, ho'], hR⟩
  · rintro a b ⟨id', hedge⟩ ⟨o', ho', hR⟩
    obtain ⟨o₂, ho₂, hn⟩ := hedge.order_next ho'
    exact ⟨o₂, ho₂, htrans hR (hnext hn (hkeep hP hR))⟩

/-- The same over a run. -/
theorem run_row {R : LnOrderRow → LnOrderRow → Prop} {P : LnOrderRow → Prop}
    (hrefl : ∀ o, R o o) (htrans : ∀ {a b d}, R a b → R b d → R a d) (hkeep : ∀ {a b}, P a → R a b → P b)
    (hnext : ∀ {c : EdgeCtx} {db : LnDb} {a b}, OrderNext c db a b → P a → R a b)
    (hw : (lnSystem env).Reachable w) (hrun : (lnSystem env).run w is = some w')
    (ho : getOrder id w.db = some o) (hP : P o) : ∃ o', getOrder id w'.db = some o' ∧ R o o' := by
  induction is generalizing w o with
  | nil =>
    obtain rfl := Option.some.inj hrun
    exact ⟨o, ho, hrefl o⟩
  | cons i is ih =>
    obtain ⟨w₁, hstep, hrun⟩ := Option.bind_eq_some_iff.mp hrun
    obtain ⟨o₁, ho₁, hR⟩ := step_row hrefl htrans hkeep hnext hw hstep ho hP
    obtain ⟨o', ho', hR'⟩ := ih (hw.next hstep) hrun ho₁ (hkeep hP hR)
    exact ⟨o', ho', htrans hR hR'⟩

/-- **An order that has ended stays as it is**, however a run goes on, but for the progress of its
payout: what has been paid out stays paid out, and a new invoice is taken only for a payout that is
owed and has not been made. -/
theorem lnEnded_is_final (hw : (lnSystem env).Reachable w) (hrun : (lnSystem env).run w is = some w')
    (ho : getOrder id w.db = some o) (hend : isTerminalState o.state = true) :
    ∃ o', getOrder id w'.db = some o' ∧ LnEnded o o' := by
  have hp : o.pendingClose = none := by
    cases hp : o.pendingClose with
    | none => rfl
    | some reason =>
      have hcan := ((sound_of_reachable hw).ledger.order id o ho).closing reason hp
      have hempty : o.state.transitions = [] := of_decide_eq_true hend
      rw [canTransition, hempty] at hcan
      exact absurd hcan (by simp)
  exact run_row (P := fun o => isTerminalState o.state = true ∧ o.pendingClose = none) LnEnded.refl
    LnEnded.trans (fun hP hR => by rwa [hR.state, hR.pendingClose])
    (fun hn hP => hn.lnEnded hP.1 hP.2) hw hrun ho ⟨hend, hp⟩

/-- **A version names a state**: versions only grow, and between two moments with the same version an
order is the same. -/
theorem lnVersion_names_state (hw : (lnSystem env).Reachable w)
    (hrun : (lnSystem env).run w is = some w') (ho : getOrder id w.db = some o) :
    ∃ o', getOrder id w'.db = some o' ∧ o.version ≤ o'.version ∧
      (o'.version = o.version → o' = o) := by
  refine run_row (R := fun a b => a.version ≤ b.version ∧ (b.version = a.version → b = a))
    (P := fun _ => True) (fun o => ⟨le_refl _, fun _ => rfl⟩) ?_ (fun _ _ => trivial)
    (fun hn _ => hn.version) hw hrun ho trivial
  rintro a b d ⟨hle, heq⟩ ⟨hle', heq'⟩
  refine ⟨hle.trans hle', fun hsame => ?_⟩
  have hfirst : b.version = a.version := le_antisymm (hsame ▸ hle') hle
  exact (heq' (hsame.trans hfirst.symm)).trans (heq hfirst)

/-- The trade has ended, and its payout is made afterwards. -/
theorem samplePayout_run : ∃ w o w' o', sampleRun sampleClosing = some w ∧
    getOrder "ord1" w.db = some o ∧ (lnSystem sampleEnv).run w samplePayout = some w' ∧
      getOrder "ord1" w'.db = some o' ∧ o.state = .paid ∧ o.disbursed = false ∧ o'.disbursed = true := by
  have hrun : (sampleRun sampleClosing).bind (fun w => (getOrder "ord1" w.db).bind fun o =>
      ((lnSystem sampleEnv).run w samplePayout).bind fun w' => (getOrder "ord1" w'.db).map fun o' =>
        decide (o.state = .paid ∧ o.disbursed = false ∧ o'.disbursed = true)) = some true := by
    decide +kernel
  obtain ⟨w, hw, hrest⟩ := Option.bind_eq_some_iff.mp hrun
  obtain ⟨o, ho, hrest⟩ := Option.bind_eq_some_iff.mp hrest
  obtain ⟨w', hw', hrest⟩ := Option.bind_eq_some_iff.mp hrest
  obtain ⟨o', ho', hfacts⟩ := Option.map_eq_some_iff.mp hrest
  exact ⟨w, o, w', o', hw, ho, hw', ho', of_decide_eq_true hfacts⟩

theorem lnEnded_is_final_payout : ∃ w o w' o', sampleRun sampleClosing = some w ∧
    getOrder "ord1" w.db = some o ∧ o.state = .paid ∧ o.disbursed = false ∧
      (lnSystem sampleEnv).run w samplePayout = some w' ∧ getOrder "ord1" w'.db = some o' ∧
      o'.disbursed = true ∧ LnEnded o o' := by
  obtain ⟨w, o, w', o', hw, ho, hw', ho', hs, hd, hd'⟩ := samplePayout_run
  obtain ⟨o₁, ho₁, hended⟩ := lnEnded_is_final (reachable_of_sampleRun hw) hw' ho (by rw [hs]; rfl)
  obtain rfl := Option.some.inj (ho₁.symm.trans ho')
  exact ⟨w, o, w', o₁, hw, ho, hs, hd, hw', ho', hd', hended⟩

theorem lnVersion_names_state_payout : ∃ w o w' o', sampleRun sampleClosing = some w ∧
    getOrder "ord1" w.db = some o ∧ (lnSystem sampleEnv).run w samplePayout = some w' ∧
      getOrder "ord1" w'.db = some o' ∧ o.version < o'.version := by
  obtain ⟨w, o, w', o', hw, ho, hw', ho', -, hd, hd'⟩ := samplePayout_run
  obtain ⟨o₁, ho₁, hle, heq⟩ := lnVersion_names_state (reachable_of_sampleRun hw) hw' ho
  obtain rfl := Option.some.inj (ho₁.symm.trans ho')
  refine ⟨w, o, w', o₁, hw, ho, hw', ho', lt_of_le_of_ne hle fun hsame => ?_⟩
  rw [heq hsame.symm, hd] at hd'
  exact absurd hd' (by simp)

end Runs

end LnPay
