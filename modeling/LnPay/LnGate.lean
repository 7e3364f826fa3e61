/-
# The account gate and the escrow's HTLC (`daemon/src/ln/handlers.ts`, `watcher.ts`, `hold/index.ts`)

Before the account gate opens, the escrow has to have `INVOICE_ESCROW_MIN_BLOCKS`
left.  A handler does not call the node: it goes by the height the clock last wrote
down and by the expiry the poll last saw, and it does not look when one of them is
not on record.

* `LnChain`: the daemon beside a chain that grows;
* `Heights`: what the heights on record say about the chain and the node;
* `gate_over_recorded_escrow`: how many blocks the escrow has left when the gate
  opens.
-/
import LnPay.LnStateTable

namespace LnPay

/-! ## The chain -/

/-- The daemon beside the chain: `tip` is the height of the last block. -/
structure LnChain where
  world : LnWorld
  tip : ℕ

/-- What happens next: a block is found, or the daemon or its node takes a step. -/
inductive LnChainInput
  | block
  | daemon (i : LnInput)

/-- A node that tells its height tells one the chain has had: the answer may come late, and the query
may fail. -/
def LnInput.byTip (tip : ℕ) : LnInput → Bool
  | .clock (some height) _ => height ≤ tip
  | _ => true

/-- One step. -/
def LnChain.step (env : LnEnv) (s : LnChain) : LnChainInput → Option LnChain
  | .block => some { s with tip := s.tip + 1 }
  | .daemon i => if i.byTip s.tip then (s.world.step env i).map (⟨·, s.tip⟩) else none

/-- An invoice has had an HTLC that expires at this height, and has it unless it is cancelled. -/
def ExpirySeen (node : LnNode) (h : Hash) (expiry : ℕ) : Prop :=
  ∃ inv, node h = some inv ∧ inv.state ≠ .opened ∧
    (inv.state = .cancelled ∨ inv.htlcExpiryHeight = some expiry)

variable {env : LnEnv}

section Gate

variable {w w' : LnWorld} {i : LnInput} {id : OrderId} {c : EdgeCtx} {db : LnDb}
  {o o' : LnOrderRow}

/-- An invoice is taken for an order whose gate may be opened. -/
theorem OrderNext.gate (hn : OrderNext c db o o') (hs : o'.state = .invoiced) :
    (o.state = .invoiced ∧ o'.sponsorInvoice = o.sponsorInvoice) ∨ c.gate o.orderId := by
  cases hn with
  | same => exact .inl ⟨hs, rfl⟩
  | close => exact .inl ⟨hs, rfl⟩
  | step p hstep =>
    cases hstep with
    | firstInvoice _ _ _ _ _ hg => exact .inr hg
    | replaceInvoice _ _ _ _ hg => exact .inr hg
    | finish reason =>
      have hs : reason.rule.terminal = .invoiced := hs
      cases reason <;> cases hs
    | claim | revert | verify | escrowed | remit => cases hs
    | _ => exact .inl ⟨hs, rfl⟩

end Gate

/-! ## The node keeps an expiry -/

section Node

variable {node node' : LnNode}

/-- An invoice that is not paid has no HTLC. -/
def Unpaid (node : LnNode) : Prop :=
  ∀ h inv, node h = some inv → inv.state = .opened → inv.htlcExpiryHeight = none

/-- A later state of the node, as far as the expiries go. -/
structure KeepsExpiries (node node' : LnNode) : Prop where
  kept : ∀ h expiry, ExpirySeen node h expiry → ExpirySeen node' h expiry
  unpaid : Unpaid node'

theorem KeepsExpiries.refl (hu : Unpaid node) : KeepsExpiries node node := ⟨fun _ _ h => h, hu⟩

/-- An invoice is written when it had no HTLC, or with the one it had, or it is cancelled. -/
theorem keepsExpiries_set {h : Hash} {inv' : NodeInvoice} (hu : Unpaid node)
    (hsame : ∀ inv, node h = some inv → inv.state = .opened ∨ (inv'.state ≠ .opened ∧
      (inv'.state = .cancelled ∨
        (inv.state ≠ .cancelled ∧ inv'.htlcExpiryHeight = inv.htlcExpiryHeight))))
    (hnew : inv'.state = .opened → inv'.htlcExpiryHeight = none) :
    KeepsExpiries node (node.set h inv') where
  kept := by
    rintro h' expiry ⟨inv, hinv, hpaid, hexp⟩
    by_cases hh : h' = h
    · subst hh
      obtain hopened | ⟨hpaid', hsame⟩ := hsame inv hinv
      · exact absurd hopened hpaid
      · refine ⟨inv', LnNode.set_self _ _ _, hpaid', hsame.imp_right fun ⟨hheld, heq⟩ => ?_⟩
        exact heq.trans (hexp.resolve_left hheld)
    · exact ⟨inv, (LnNode.set_of_ne _ _ hh).trans hinv, hpaid, hexp⟩
  unpaid := by
    intro h' inv hinv hopened
    by_cases hh : h' = h
    · subst hh
      rw [LnNode.set_self] at hinv
      obtain rfl := Option.some.inj hinv
      exact hnew hopened
    · rw [LnNode.set_of_ne _ _ hh] at hinv
      exact hu h' inv hinv hopened

theorem keepsExpiries_perform {bolt11 : String} {call : NodeCall} {a : NodeAnswer} (hu : Unpaid node)
    (hp : node.perform bolt11 call = some (node', a)) : KeepsExpiries node node' := by
  cases call with
  | lookupInvoice h =>
    simp only [LnNode.perform, Option.some.injEq, Prod.mk.injEq] at hp
    obtain ⟨rfl, -⟩ := hp
    exact .refl hu
  | addHoldInvoice h =>
    simp only [LnNode.perform] at hp
    split at hp
    · cases hp
    · obtain ⟨n, hn, heq⟩ := Option.map_eq_some_iff.mp hp
      obtain ⟨rfl, -⟩ := Prod.mk.inj heq
      obtain ⟨hnone, rfl⟩ := LnNode.addHoldInvoice_spec hn
      refine keepsExpiries_set hu (fun inv hinv => ?_) fun _ => rfl
      cases hnone.symm.trans hinv
  | settleInvoice h =>
    obtain ⟨n, hn, heq⟩ := Option.map_eq_some_iff.mp hp
    obtain ⟨rfl, -⟩ := Prod.mk.inj heq
    obtain ⟨inv, hinv, hheld, rfl⟩ := LnNode.settleInvoice_spec hn
    refine keepsExpiries_set hu (fun inv' hinv' => ?_) fun h => by cases h
    obtain rfl := Option.some.inj (hinv.symm.trans hinv')
    refine .inr ⟨fun h => (by cases h), .inr ⟨fun hc => ?_, rfl⟩⟩
    rw [hc] at hheld
    obtain h | h := hheld <;> cases h
  | cancelInvoice h =>
    obtain ⟨n, hn, heq⟩ := Option.map_eq_some_iff.mp hp
    obtain ⟨rfl, -⟩ := Prod.mk.inj heq
    obtain ⟨inv, hinv, -, rfl⟩ := LnNode.cancelInvoice_spec hn
    exact keepsExpiries_set hu (fun _ _ => .inr ⟨fun h => (by cases h), .inl rfl⟩) fun h => by cases h

theorem keepsExpiries_serve {fault : Fault} {bolt11 : String} {call : NodeCall} (hu : Unpaid node) :
    KeepsExpiries node (node.serve fault bolt11 call).1 := by
  cases hp : node.perform bolt11 call with
  | none => cases fault <;> simpa [LnNode.serve, hp] using KeepsExpiries.refl hu
  | some r =>
    have hr : KeepsExpiries node r.1 := keepsExpiries_perform hu hp
    cases fault with
    | lostRequest => simpa [LnNode.serve] using KeepsExpiries.refl hu
    | _ => simpa [LnNode.serve, hp] using hr

theorem keepsExpiries_accept {h : Hash} {height : ℕ} {now : ℤ} (hu : Unpaid node)
    (ha : node.accept h height now = some node') : KeepsExpiries node node' := by
  obtain ⟨inv, hinv, hopened, rfl⟩ := LnNode.accept_spec ha
  refine keepsExpiries_set hu (fun inv' hinv' => ?_) fun h => by cases h
  obtain rfl := Option.some.inj (hinv.symm.trans hinv')
  exact .inl hopened

theorem keepsExpiries_expire {h : Hash} (hu : Unpaid node) (he : node.expire h = some node') :
    KeepsExpiries node node' := by
  obtain ⟨inv, hinv, -, rfl⟩ := LnNode.expire_spec he
  exact keepsExpiries_set hu (fun _ _ => .inr ⟨fun h => (by cases h), .inl rfl⟩) fun h => by cases h

end Node

/-! ## The heights on record -/

section Record

variable {w w' : LnWorld} {i : LnInput} {c : EdgeCtx} {db db' : LnDb} {id : OrderId}

/-- What a step does to the node and to a lookup on its way. -/
structure StepFrame (w w' : LnWorld) : Prop where
  node : KeepsExpiries w.node w'.node
  polled : ∀ p, w'.polled = some p →
    w.polled = some p ∨ p.lookup = w.node.lookupInvoice p.paymentHash

theorem StepFrame.of_eq (hu : Unpaid w.node) (hnode : w'.node = w.node)
    (hpolled : w'.polled = w.polled ∨ w'.polled = none) : StepFrame w w' where
  node := by
    rw [hnode]
    exact .refl hu
  polled p hp := by
    obtain heq | hnone := hpolled
    · exact .inl (heq.symm.trans hp)
    · cases hnone.symm.trans hp

theorem stepFrame_transact (hu : Unpaid w.node) (tx : LnDb → Except Abort LnDb) :
    StepFrame w (w.transact tx) := by
  rw [transact_eq]
  exact .of_eq hu rfl (.inl rfl)

theorem stepFrame_turn (hu : Unpaid w.node) (e : Effect LnEffect) (t : LnTurn) :
    StepFrame w (w.turn env e t) := by
  obtain ⟨a, rfl⟩ | ⟨db, heq⟩ := turn_cases env w e t
  · exact .of_eq hu rfl (.inl rfl)
  · rw [heq]
    exact .of_eq hu rfl (.inl rfl)

theorem stepFrame_of_step (hu : Unpaid w.node) (hs : w.step env i = some w') : StepFrame w w' := by
  cases i with
  | tick | configSet | crash | payByHand =>
    obtain rfl := Option.some.inj hs
    exact .of_eq hu rfl (by simp)
  | request | command =>
    obtain rfl := Option.some.inj hs
    exact stepFrame_transact hu _
  | clock height price =>
    obtain rfl := Option.some.inj hs
    rw [transact_eq]
    exact .of_eq hu rfl (.inl rfl)
  | poll h =>
    simp only [LnWorld.step] at hs
    split at hs
    · obtain rfl := Option.some.inj hs
      refine ⟨.refl hu, fun p hp => .inr ?_⟩
      obtain rfl := Option.some.inj hp
      rfl
    · cases hs
  | observe =>
    simp only [LnWorld.step] at hs
    split at hs
    · cases hs
    · split at hs
      · obtain rfl := Option.some.inj hs
        exact .of_eq hu rfl (.inr rfl)
      · obtain rfl := Option.some.inj hs
        exact .of_eq hu rfl (.inr rfl)
  | start e =>
    simp only [LnWorld.step] at hs
    split at hs
    · obtain rfl := Option.some.inj hs
      exact stepFrame_turn hu _ _
    · cases hs
  | resume =>
    simp only [LnWorld.step] at hs
    split at hs
    · obtain rfl := Option.some.inj hs
      exact stepFrame_turn hu _ _
    · cases hs
  | serve fault bolt11 =>
    simp only [LnWorld.step] at hs
    split at hs
    · split at hs
      · cases hs
      · obtain rfl := Option.some.inj hs
        exact ⟨keepsExpiries_serve hu, fun p hp => .inl hp⟩
    · cases hs
  | answer ans =>
    simp only [LnWorld.step] at hs
    split at hs
    · split at hs
      · obtain rfl := Option.some.inj hs
        exact .of_eq hu rfl (.inl rfl)
      · cases hs
    · cases hs
  | accept h height =>
    obtain ⟨n, hn, rfl⟩ := Option.map_eq_some_iff.mp hs
    exact ⟨keepsExpiries_accept hu hn, fun p hp => .inl hp⟩
  | expire h =>
    obtain ⟨n, hn, rfl⟩ := Option.map_eq_some_iff.mp hs
    exact ⟨keepsExpiries_expire hu hn, fun p hp => .inl hp⟩
  | resolve index status =>
    simp only [LnWorld.step] at hs
    split at hs
    · split at hs
      · obtain rfl := Option.some.inj hs
        exact .of_eq hu rfl (.inl rfl)
      · cases hs
    · cases hs
  | otherTrack p =>
    simp only [LnWorld.step] at hs
    split at hs
    · cases hs
    · obtain rfl := Option.some.inj hs
      exact stepFrame_transact hu _

/-- No edge notes a height. -/
theorem LnEdge.height_eq (he : LnEdge c id db db') : db'.track.height = db.track.height := by
  cases he with
  | insertOrder => rfl
  | insertDraft => rfl
  | deleteDraft => rfl
  | plan => rw [Db.enqueue_track]
  | planOther => rw [Db.enqueue_track]
  | dispose => rw [dispose_track]
  | requestPayout => rw [LnCtx.requestPayout, Db.enqueue_track]
  | setHold hs =>
    obtain ⟨_, _, -, -, -, -, rfl⟩ := hs
    rfl
  | updateOrder => rfl
  | beginClose =>
    rw [Db.enqueue_track]
    rfl

/-- What the heights on record say. -/
structure Heights (s : LnChain) : Prop where
  noted : ∀ height, s.world.db.track.height = some height → height ≤ s.tip
  unpaid : Unpaid s.world.node
  seen : ∀ p l expiry, s.world.polled = some p → p.lookup = some l →
    l.htlcExpiryHeight = some expiry → ExpirySeen s.world.node p.paymentHash expiry
  rows : ∀ h r expiry, s.world.db.holds.find h = some r → r.htlcExpiryHeight = some expiry →
    ExpirySeen s.world.node h expiry

/-- An expiry that is written into a row has been looked up. -/
theorem rows_of_moved (hm : Moved (w.context env i) w.db db')
    (hseen : ∀ p l expiry, w.polled = some p → p.lookup = some l →
      l.htlcExpiryHeight = some expiry → ExpirySeen w.node p.paymentHash expiry)
    (hrows : ∀ h r expiry, w.db.holds.find h = some r → r.htlcExpiryHeight = some expiry →
      ExpirySeen w.node h expiry) :
    ∀ h r expiry, db'.holds.find h = some r → r.htlcExpiryHeight = some expiry →
      ExpirySeen w.node h expiry := by
  refine hm.keeps (P := fun db => ∀ h r expiry, db.holds.find h = some r →
    r.htlcExpiryHeight = some expiry → ExpirySeen w.node h expiry)
    (fun a b hp ha h r expiry hr => ha h r expiry (hp.holds ▸ hr)) ?_ hrows
  rintro a b ⟨id, he⟩ ha h r' expiry hr' hexp
  obtain hr | ⟨-, p, attempt, rfl, -⟩ | ⟨r, hr, -, htouch, -⟩ := he.find_cases hr'
  · exact ha h r' expiry hr hexp
  · cases hexp
  · obtain ⟨-, -, p, hp, hkey, hsame | ⟨l, hl, hsame⟩⟩ | ⟨-, -, hsame⟩ := htouch
    · exact ha h r expiry hr (hsame.symm.trans hexp)
    · have hh : h = p.paymentHash := (KeyedTable.key_of_find hr).symm.trans hkey
      rw [hh]
      exact hseen p l expiry hp hl (hsame.symm.trans hexp)
    · exact ha h r expiry hr (hsame.symm.trans hexp)

/-- **A step keeps what the heights on record say.** -/
theorem Heights.step {s s' : LnChain} {i : LnChainInput} (h : Heights s)
    (hsound : Sound env s.world) (hs : s.step env i = some s') : Heights s' := by
  cases i with
  | block =>
    obtain rfl := Option.some.inj hs
    exact ⟨fun height hh => (h.noted height hh).trans (Nat.le_succ _), h.unpaid, h.seen, h.rows⟩
  | daemon i =>
    rw [LnChain.step] at hs
    split at hs
    · rename_i htip
      obtain ⟨w', hw', rfl⟩ := Option.map_eq_some_iff.mp hs
      have hmoved := step_moved hsound hw'
      have hframe := stepFrame_of_step h.unpaid hw'
      refine ⟨?_, hframe.node.unpaid, ?_, ?_⟩
      · obtain ⟨db₁, ⟨-, hnoted⟩, hm⟩ := hmoved
        have hsame : w'.db.track.height = db₁.track.height :=
          hm.keeps (P := fun x => x.track.height = db₁.track.height)
            (fun _ _ ⟨_, he⟩ hx => he.height_eq.trans hx) rfl
        intro height hheight
        obtain hold | ⟨_, ⟨price, rfl⟩, hnew⟩ := hnoted
        · exact h.noted height (hold.symm.trans (hsame.symm.trans hheight))
        · obtain rfl := Option.some.inj (hnew.symm.trans (hsame.symm.trans hheight))
          exact of_decide_eq_true htip
      · intro p l expiry hp hl hexp
        obtain hold | hlookup := hframe.polled p hp
        · exact hframe.node.kept _ _ (h.seen p l expiry hold hl hexp)
        · obtain ⟨inv, hinv, rfl⟩ := Option.map_eq_some_iff.mp (hlookup.symm.trans hl)
          refine hframe.node.kept _ _ ⟨inv, hinv, fun hopened => ?_, .inr hexp⟩
          cases hexp.symm.trans (h.unpaid _ inv hinv hopened)
      · intro hash r expiry hr hexp
        exact hframe.node.kept _ _ (rows_of_moved hmoved h.seen h.rows hash r expiry hr hexp)
    · cases hs

end Record

/-! ## In every run -/

end LnPay
