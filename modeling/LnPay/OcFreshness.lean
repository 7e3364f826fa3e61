/-
# The watcher acts on fresh, known facts

Facts that were gathered for a version do nothing to a row of another version.
An answer that is not known moves no order; the daemon still notes what else is
confirmed at an address it has been told of, whatever the state is.  An order is
cancelled, or goes back, only on answers that are known and say so.
-/
import LnPay.OcFinality

namespace LnPay

variable {P : Type}

/-! ## Claimed orders have an address -/

/-- The states behind the claim. -/
def OnchainState.claimed : OnchainState → Bool
  | .listed | .cancelled => false
  | .bonded | .funded | .presigned | .remitted | .disputed | .refunding | .settling | .released
  | .refunded | .sponsorWins | .customerWins | .swept => true

/-- Only a claim leads behind the claim. -/
theorem claimed_source {s t : OnchainState} (h : t = s ∨ canOnchainTransition s t = true)
    (ht : t.claimed = true) (hb : t ≠ .bonded) : s.claimed = true := by
  obtain rfl | h := h
  · exact ht
  · revert h ht hb
    cases s <;> cases t <;> decide

example : canOnchainTransition .listed .bonded = true ∧ OnchainState.bonded.claimed = true := by
  decide +kernel

/-- An order that has been claimed has an escrow address. -/
def OcRow.Addressed (r : OcRow) : Prop :=
  r.order.state.claimed = true → (given r.order.escrowAddress).isSome = true

theorem RowStep.addressed {env : OcEnv P} {w : OcWorld} {i : OcInput} {r r' : OcRow}
    (h : RowStep (w.cause env i) r r') (hr : r.Addressed) : r'.Addressed := by
  cases h with
  | noted ho hm hv =>
    rw [OcRow.Addressed, ho]
    exact hr
  | changed o' hchange hlegal ho hv =>
    rw [OcRow.Addressed, ho]
    intro hclaimed
    change o'.state.claimed = true at hclaimed
    change (given o'.escrowAddress).isSome = true
    have hback : o'.state ≠ .bonded → o'.escrowAddress = r.order.escrowAddress →
        (given o'.escrowAddress).isSome = true := fun hb hsame => by
      rw [hsame]
      exact hr (claimed_source hlegal hclaimed hb)
    generalize hm : r'.ocMeta.record = m' at hchange
    cases hchange with
    | bond sponsor info adminXonly address blocks hash expiresAt hs ha => simp [given, ha]
    | fund => exact hback (by simp) rfl
    | decide kind feeSat fold o₁ hmay ho hb =>
      subst ho
      refine hr ?_
      have hfrom : r.order.state = .disputed ∨ r.order.state = .bonded ∨
          r.order.state = .funded ∨ r.order.state = .presigned := by
        obtain ⟨-, hstate⟩ := (Bool.and_eq_true _ _).mp hmay
        revert hstate
        cases kind <;> cases fold <;> simp_all
      obtain hs | hs | hs | hs := hfrom <;> rw [hs] <;> rfl
    | presig psbt hs hk => exact hback (by simp) rfl
    | account commitment hs hk ha => exact hr (by rw [hs]; rfl)
    | remit => exact hback (by simp) rfl
    | dispute => exact hback (by simp) rfl
    | objection hs hk => exact hr (by rw [hs]; rfl)
    | cancel => exact hback (by simp) rfl
    | reorg hact =>
      refine hr ?_
      obtain ⟨ctx, hdecide⟩ := Judged.decided hact
      obtain ⟨hs | hs, -⟩ := reorg_of_decide hdecide <;> rw [hs] <;> rfl
    | cosign => exact hback (by simp) rfl
    | adopt => exact hback (by simp) rfl
    | sweep => exact hback (by simp) rfl
    | confirmed kind hk hact => exact hback (by cases kind <;> simp [SettlementKind.terminal]) rfl
    | resolve kind hk hkind hs hres => exact hr hclaimed

theorem addressed_of_reachable {env : OcEnv P} {w : OcWorld} (hw : (ocSystem env).Reachable w)
    {id : OrderId} {r : OcRow} (hr : getOc id w.db = some r) : r.Addressed :=
  rows_invariant (fun r hfr hclaimed => by
    rw [hfr.listed] at hclaimed
    exact absurd hclaimed (by simp [OnchainState.claimed]))
    (fun _ _ _ _ hstep => hstep.addressed) hw hr

/-- Before the funding nothing is pinned. -/
def OcRow.Unpinned (r : OcRow) : Prop :=
  r.order.state = .listed ∨ r.order.state = .bonded → r.order.fundingOutpoint = none

theorem RowStep.unpinned {c : OcCause} {r r' : OcRow} (h : RowStep c r r') (hr : r.Unpinned) :
    r'.Unpinned := by
  cases h with
  | noted ho hm hv =>
    rw [OcRow.Unpinned, ho]
    exact hr
  | changed o' hchange hlegal ho hv =>
    rw [OcRow.Unpinned, ho]
    intro hearly
    change o'.state = .listed ∨ o'.state = .bonded at hearly
    change o'.fundingOutpoint = none
    generalize hm : r'.ocMeta.record = m' at hchange
    cases hchange with
    | bond sponsor info adminXonly address blocks hash expiresAt hs ha => exact hr (.inl hs)
    | reorg => rfl
    | decide kind feeSat fold o₁ hmay ho hb =>
      subst ho
      have hruling := (mayDecide_state hmay).2
      dsimp only at hearly
      split at hearly
      · rename_i hr'
        rw [hruling hr'] at hearly
        simp at hearly
      · simp at hearly
    | account commitment hs hk ha =>
      rw [hs] at hearly
      simp at hearly
    | objection hs hk =>
      rw [hs] at hearly
      simp at hearly
    | confirmed kind hk hact =>
      cases kind <;> simp [SettlementKind.terminal] at hearly
    | resolve kind hk hkind hs hres => exact hr hearly
    | fund | presig | remit | dispute | cancel | cosign | adopt | sweep => simp at hearly

theorem unpinned_of_reachable {env : OcEnv P} {w : OcWorld} (hw : (ocSystem env).Reachable w)
    {id : OrderId} {r : OcRow} (hr : getOc id w.db = some r) : r.Unpinned :=
  rows_invariant (Q := OcRow.Unpinned) (fun _ hfr _ => hfr.unpinned) (fun _ _ _ _ hstep => hstep.unpinned) hw hr

/-! ## Facts that are not known -/

/-- An action that does nothing to the order. -/
def OnchainAction.inert : OnchainAction → Bool
  | .idle | .hold _ | .anomaly _ | .warn _ | .disputeSoon => true
  | _ => false

theorem execute_inert {ctx : OcCtx P} {row : OcRow} {a : OnchainAction} {db : OcDb}
    (h : a.inert = true) : ctx.execute row a db = .ok db := by
  cases a with
  | idle | hold _ | anomaly _ | warn _ | disputeSoon => rfl
  | fund _ _ _ | fold _ _ _ | cancel | reorg | settle _ | dispute | confirmed | observeSpend _ _
  | rebroadcast => exact absurd h (by simp [OnchainAction.inert])

/-- The states in which the funding is watched. -/
def OnchainState.watched : OnchainState → Bool
  | .bonded | .funded | .presigned | .remitted | .disputed | .refunding => true
  | .listed | .settling | .released | .refunded | .sponsorWins | .customerWins | .cancelled
  | .swept => false

/-- What was gathered is not known: the funds of the address, or the state of the pinned outpoint. -/
def Facts.Unknown (facts : Facts) : Prop :=
  (∃ reason, facts.funds = .unknown reason) ∨ ∃ reason, facts.pinned = some (.unknown reason)

/-- Unknown funds say nothing of the pinned outpoint. -/
theorem pinned_of_unknown_funds {lib : BtcSigner P} {o : OnchainOrder} {answers : ChainAnswers}
    {facts : Facts} {reason : String} (h : gather lib o answers = .ok facts)
    (hf : facts.funds = .unknown reason) :
    facts.pinned = none ∨ facts.pinned = some (.unknown reason) := by
  obtain ⟨hfunds, hpinned⟩ := gather_ok h
  cases hp : facts.pinned with
  | none => exact .inl rfl
  | some p =>
    right
    have hgather := hpinned p hp
    rw [← hfunds, hf] at hgather
    unfold gatherPinnedFacts at hgather
    split at hgather
    · cases hgather
    · exact (Except.ok.inj hgather).symm

/-- What is not known leads to no action. -/
theorem inert_of_unknown {lib : BtcSigner P} {o : OnchainOrder} {answers : ChainAnswers}
    {facts : Facts} (ctx : OnchainWatchContext) (hs : o.state.watched = true)
    (h : gather lib o answers = .ok facts) (hu : facts.Unknown) (hfunds : ctx.funds = facts.funds)
    (hpinned : ctx.pinned = facts.pinned)
    (hbonded : o.state = .bonded → ∃ reason, facts.funds = .unknown reason) :
    (decideOnchainAction o ctx).inert = true := by
  have hpin : (ctx.pinned = none ∨ ∃ reason, ctx.pinned = some (.unknown reason)) := by
    rw [hpinned]
    obtain ⟨reason, hf⟩ | ⟨reason, hp⟩ := hu
    · exact (pinned_of_unknown_funds h hf).imp id fun hp => ⟨reason, hp⟩
    · exact .inr ⟨reason, hp⟩
  have hdecide : (decidePinned o ctx).inert = true := by
    unfold decidePinned
    obtain hp | ⟨reason, hp⟩ := hpin <;> rw [hp] <;> rfl
  unfold decideOnchainAction
  cases hstate : o.state with
  | bonded =>
    obtain ⟨reason, hf⟩ := hbonded hstate
    simp only [decideBonded, hfunds, hf, judgeFunding, OnchainAction.inert]
  | funded | presigned | remitted | disputed | refunding =>
    dsimp only
    split
    · rfl
    · exact hdecide
  | listed | settling | released | refunded | sponsorWins | customerWins | cancelled | swept =>
    rw [hstate] at hs
    exact absurd hs (by simp [OnchainState.watched])

/-! ## What is noted -/

/-- Two rows that differ in the time of the last signature request at most. -/
def SameData (r r' : OcRow) : Prop :=
  r'.order = r.order ∧ r'.version = r.version ∧
    { r'.ocMeta with lastSignRequestAt := none } = { r.ocMeta with lastSignRequestAt := none }

/-- Two rows that differ in that time and in the list of strays at most. -/
def SameButStrays (r r' : OcRow) : Prop :=
  r'.order = r.order ∧ r'.version = r.version ∧
    { r'.ocMeta with lastSignRequestAt := none, strays := [] } =
      { r.ocMeta with lastSignRequestAt := none, strays := [] }

theorem SameData.refl (r : OcRow) : SameData r r := ⟨rfl, rfl, rfl⟩

theorem SameData.sameButStrays {r r' : OcRow} (h : SameData r r') : SameButStrays r r' :=
  ⟨h.1, h.2.1, congrArg (fun m : OcMeta => { m with strays := [] }) h.2.2⟩

theorem SameButStrays.trans {r r₁ r' : OcRow} (h : SameButStrays r r₁) (h' : SameData r₁ r') :
    SameButStrays r r' :=
  ⟨h'.1.trans h.1, h'.2.1.trans h.2.1, h'.sameButStrays.2.2.trans h.2.2⟩

/-- The row of an order after a note has been written of one. -/
theorem getOc_note {id orderId : OrderId} {metaPatch : OcMeta → OcMeta} {db : OcDb} {r : OcRow}
    (hr : getOc id db = some r) :
    ∃ r', getOc id (updateOcMeta orderId metaPatch db) = some r' ∧
      (r' = r ∨ r' = { r with ocMeta := metaPatch r.ocMeta }) := by
  rw [getOc_updateOcMeta]
  by_cases hid : id = orderId
  · rw [if_pos hid, hr]
    exact ⟨_, rfl, .inr rfl⟩
  · rw [if_neg hid, hr]
    exact ⟨r, rfl, .inl rfl⟩

theorem getOc_enqueue (e : Effect OcEffect) (id : OrderId) (db : OcDb) :
    getOc id (db.enqueue e) = getOc id db :=
  getOc_congr (by rw [Db.enqueue_track]) id

/-- A signature is asked for again: the rows keep their data. -/
theorem sameData_requestSettlementSignature {ctx : OcCtx P} {orderId id : OrderId} {b : Bool}
    {db db' : OcDb} {r : OcRow} (hr : getOc id db = some r)
    (h : ctx.requestSettlementSignature orderId db = .ok (b, db')) :
    ∃ r', getOc id db' = some r' ∧ SameData r r' := by
  unfold OcCtx.requestSettlementSignature at h
  split at h
  · obtain ⟨-, rfl⟩ := Prod.mk.inj (Except.ok.inj h)
    exact ⟨r, hr, .refl r⟩
  · split at h
    · obtain ⟨-, rfl⟩ := Prod.mk.inj (Except.ok.inj h)
      exact ⟨r, hr, .refl r⟩
    · dsimp only at h
      split at h
      · split at h
        · exact absurd h (by simp)
        · obtain ⟨-, rfl⟩ := Prod.mk.inj (Except.ok.inj h)
          rename_i kind _ _ _ _ _ recipient _ _ _ tx _
          have hsent : getOc id (ctx.sendOcSignRequest orderId recipient (signPurposeFor kind)
              (ctx.env.toPsbtBase64 tx) db) = some r := (getOc_enqueue _ id db).trans hr
          obtain ⟨r', hr', rfl | rfl⟩ := getOc_note hsent
          · exact ⟨r', hr', .refl r'⟩
          · exact ⟨_, hr', rfl, rfl, rfl⟩
      · obtain ⟨-, rfl⟩ := Prod.mk.inj (Except.ok.inj h)
        exact ⟨r, hr, .refl r⟩

theorem sameData_maybeResendSignature {ctx : OcCtx P} {row : OcRow} {id : OrderId}
    {db db' : OcDb} {r : OcRow} (hr : getOc id db = some r)
    (h : ctx.maybeResendSignature row db = .ok db') :
    ∃ r', getOc id db' = some r' ∧ SameData r r' := by
  unfold OcCtx.maybeResendSignature at h
  split at h
  · obtain rfl := Except.ok.inj h
    exact ⟨r, hr, .refl r⟩
  · split at h
    · obtain rfl := Except.ok.inj h
      exact ⟨r, hr, .refl r⟩
    · obtain ⟨⟨b, db₁⟩, hsign, rfl⟩ := Except.map_eq_ok_iff.mp h
      exact sameData_requestSettlementSignature hr hsign

theorem sameButStrays_noteStrays {row : OcRow} {strays : List ChainUtxo} {id : OrderId} {db : OcDb}
    {r : OcRow} (hr : getOc id db = some r) :
    ∃ r', getOc id (noteStrays row strays db) = some r' ∧ SameButStrays r r' := by
  unfold noteStrays
  dsimp only
  split
  · exact ⟨r, hr, rfl, rfl, rfl⟩
  · obtain ⟨r', hr', rfl | rfl⟩ := getOc_note hr
    · exact ⟨r', hr', rfl, rfl, rfl⟩
    · exact ⟨_, hr', rfl, rfl, rfl⟩

/-- After an action, the data of a row is as the action left it; its strays are noted only if the
funds are known. -/
theorem afterAction_row {ctx : OcCtx P} {orderId id : OrderId} {action : OnchainAction}
    {facts : Facts} {db db' : OcDb} {r : OcRow} (hr : getOc id db = some r)
    (h : ctx.afterAction orderId action facts db = .ok db') :
    ∃ r', getOc id db' = some r' ∧ SameButStrays r r' ∧
      ((∃ reason, facts.funds = .unknown reason) → SameData r r') := by
  unfold OcCtx.afterAction at h
  split at h
  · obtain rfl := Except.ok.inj h
    exact ⟨r, hr, ⟨rfl, rfl, rfl⟩, fun _ => .refl r⟩
  · dsimp only at h
    cases hfunds : facts.funds with
    | unknown reason =>
      rw [hfunds] at h
      obtain ⟨r', hr', hdata⟩ := sameData_maybeResendSignature hr h
      exact ⟨r', hr', hdata.sameButStrays, fun _ => hdata⟩
    | known funds =>
      rw [hfunds] at h
      dsimp only at h
      split at h
      · obtain ⟨r₁, hr₁, hsame⟩ := sameButStrays_noteStrays hr
        obtain ⟨r', hr', hdata⟩ := sameData_maybeResendSignature hr₁ h
        exact ⟨r', hr', hsame.trans hdata, fun ⟨reason, hu⟩ => by cases hu⟩
      · obtain ⟨r', hr', hdata⟩ := sameData_maybeResendSignature hr h
        exact ⟨r', hr', hdata.sameButStrays, fun ⟨reason, hu⟩ => by cases hu⟩

/-! ## One row of a poll -/

section Judge

variable {env : OcEnv P} {w w' : OcWorld} {p : OcRow} {rest : List OcRow} {answers : ChainAnswers}
  {price : Option ℚ}

/-- A row of a poll, judged. -/
theorem step_judge (hpoll : w.polling = p :: rest)
    (h : (ocSystem env).step w (.judge answers price) = some w') :
    w' = w.judge env p rest answers price := by
  change OcWorld.step env w (.judge answers price) = some w' at h
  simp only [OcWorld.step] at h
  split at h
  · exact absurd h (by simp)
  · rename_i p' rest' hpoll'
    obtain ⟨rfl, rfl⟩ := List.cons.inj (hpoll.symm.trans hpoll')
    exact (Option.some.inj h).symm

/-- Facts of another version do nothing. -/
theorem judge_stale {r : OcRow} (hpoll : w.polling = p :: rest)
    (h : (ocSystem env).step w (.judge answers price) = some w')
    (hr : getOc p.order.orderId w.db = some r) (hv : r.version ≠ p.version) : w'.db = w.db := by
  obtain rfl := step_judge hpoll h
  obtain hsame | ⟨facts, db', -, happly, hdb⟩ := judge_cases env w p rest answers price
  · exact hsame
  · rw [hdb]
    have hnone : (getOc p.order.orderId w.db).filter (fun row => row.version = p.version) = none := by
      rw [hr, Option.filter_some, if_neg (by simpa using hv)]
    rw [OcCtx.applyFacts, hnone] at happly
    exact (Except.ok.inj happly).symm

/-- Facts that are not known leave the order's data as it was. -/
theorem judge_unknown {r : OcRow} {facts : Facts} (hw : (ocSystem env).Reachable w)
    (hpoll : w.polling = p :: rest) (h : (ocSystem env).step w (.judge answers price) = some w')
    (hr : getOc p.order.orderId w.db = some r) (hs : p.order.state.watched = true)
    (hfacts : gather env.lib p.order answers = .ok facts) (hu : facts.Unknown) :
    ∃ r', getOc p.order.orderId w'.db = some r' ∧ SameButStrays r r' ∧
      ((∃ reason, facts.funds = .unknown reason) → SameData r r') := by
  by_cases hv : r.version = p.version
  · obtain ⟨r₁, hr₁, -, hsame⟩ := snapshot_of_reachable hw p (by rw [hpoll]; simp)
    obtain rfl := Option.some.inj (hr.symm.trans hr₁)
    have ho : p.order = r.order := hsame hv.symm
    obtain rfl := step_judge hpoll h
    obtain hdb | ⟨facts', db', hfacts', happly, hdb⟩ := judge_cases env w p rest answers price
    · rw [hdb]
      exact ⟨r, hr, (SameData.refl r).sameButStrays, fun _ => .refl r⟩
    · obtain rfl := Except.ok.inj (hfacts.symm.trans hfacts')
      rw [hdb]
      have hsome : (getOc p.order.orderId w.db).filter (fun row => row.version = p.version) =
          some r := by
        rw [hr, Option.filter_some, if_pos (by simpa using hv)]
      have hlive : isOnchainTerminal r.order.state = false := by
        rw [← ho]
        revert hs
        cases p.order.state <;> decide
      -- a bonded order has nothing pinned, so that it is the funds that are unknown
      have hbonded : p.order.state = .bonded → ∃ reason, facts.funds = .unknown reason := by
        intro hb
        have hnone := unpinned_of_reachable hw hr (.inr (ho ▸ hb))
        refine hu.resolve_right ?_
        rintro ⟨reason, hpinned⟩
        have hgather := (gather_ok hfacts).2 _ hpinned
        rw [gatherPinnedFacts, ho, hnone] at hgather
        cases hgather
      have hinert := inert_of_unknown ((w.ctx env price).watchContext r facts w.db) hs hfacts hu rfl
        rfl hbonded
      rw [ho] at hinert
      rw [OcCtx.applyFacts, hsome] at happly
      dsimp only at happly
      rw [hlive, execute_inert hinert] at happly
      have hafter : (w.ctx env price).afterAction p.order.orderId (decideOnchainAction r.order
          ((w.ctx env price).watchContext r facts w.db)) facts w.db = .ok db' := by
        simp only [Bool.false_eq_true, if_false] at happly
        split at happly <;> exact happly
      exact afterAction_row hr hafter
  · exact ⟨r, by rw [judge_stale hpoll h hr hv]; exact hr, (SameData.refl r).sameButStrays,
      fun _ => .refl r⟩

end Judge

/-! ## Leaving `bonded`, and coming back to it -/

/-- A bonded order is cancelled by the watcher only. -/
theorem OcChange.cancels {c : OcCause} {o o' : OnchainOrder} {m m' : OcMeta}
    (h : OcChange c o m o' m') (hs : o.state = .bonded) (hs' : o'.state = .cancelled) :
    c.acts o .cancel := by
  cases h with
  | cancel hcancel =>
    refine hcancel.resolve_left fun hlisted => ?_
    rw [hs] at hlisted
    exact absurd hlisted (by simp)
  | decide kind feeSat fold o₁ hmay ho hb =>
    subst ho
    dsimp only at hs'
    split at hs'
    · rw [hs] at hs'
      exact absurd hs' (by simp)
    · exact absurd hs' (by simp)
  | account | objection | resolve =>
    have hsame : o.state = .cancelled := hs'
    rw [hs] at hsame
    exact absurd hsame (by simp)
  | confirmed kind => cases kind <;> exact absurd hs' (by simp [SettlementKind.terminal])
  | bond | fund | presig | remit | dispute | reorg | cosign | adopt | sweep =>
    exact absurd hs' (by simp)

/-- A funded order goes back through the watcher only. -/
theorem OcChange.goesBack {c : OcCause} {o o' : OnchainOrder} {m m' : OcMeta}
    (h : OcChange c o m o' m') (hs : o.state = .funded ∨ o.state = .presigned)
    (hs' : o'.state = .bonded) : c.acts o .reorg := by
  have hne : o.state ≠ .bonded := by
    obtain h | h := hs <;> rw [h] <;> simp
  cases h with
  | reorg hact => exact hact
  | bond sponsor info adminXonly address blocks hash expiresAt hlisted ha =>
    rw [hlisted] at hs
    simp at hs
  | decide kind feeSat fold o₁ hmay ho hb =>
    subst ho
    dsimp only at hs'
    split at hs'
    · exact absurd hs' hne
    · exact absurd hs' (by simp)
  | account | objection | resolve => exact absurd hs' hne
  | confirmed kind => cases kind <;> exact absurd hs' (by simp [SettlementKind.terminal])
  | fund | presig | remit | dispute | cancel | cosign | adopt | sweep =>
    exact absurd hs' (by simp)

/-- A change of state is one of the changes. -/
theorem RowStep.change {c : OcCause} {r r' : OcRow} (h : RowStep c r r')
    (hne : r'.order.state ≠ r.order.state) :
    ∃ o', OcChange c r.order r.ocMeta.record o' r'.ocMeta.record ∧ o'.state = r'.order.state := by
  cases h with
  | noted ho hm hv => exact absurd (congrArg OnchainOrder.state ho) hne
  | changed o' hchange hlegal ho hv => exact ⟨o', hchange, by rw [ho]; rfl⟩

/-- The funds of an order with an address are those of the explorer. -/
theorem fundsOf_eq {o : OnchainOrder} {answers : ChainAnswers}
    (h : (given o.escrowAddress).isSome = true) :
    fundsOf o answers = getAddressFunds answers.utxos answers.tip := by
  rw [fundsOf, if_pos h]

/-! ## The result -/

/-- A judge step for this very version of the row, whose address is known to have nothing confirmed,
after the funding deadline. -/
def KnownEmpty (w : OcWorld) (i : OcInput) (r : OcRow) : Prop :=
  ∃ answers price p rest f, i = .judge answers price ∧ w.polling = p :: rest ∧ p.order = r.order ∧
    p.version = r.version ∧ getAddressFunds answers.utxos answers.tip = .known f ∧
    f.confirmed = [] ∧ ∃ d, r.order.fundingDeadline = some d ∧ 0 < d ∧ d ≤ w.now

/-- A judge step for this very version of the row, whose pinned outpoint is known not to be deep
enough. -/
def KnownBack (w : OcWorld) (i : OcInput) (r : OcRow) : Prop :=
  ∃ answers price p rest, i = .judge answers price ∧ w.polling = p :: rest ∧ p.order = r.order ∧
    p.version = r.version ∧
    fundsOf r.order answers = getAddressFunds answers.utxos answers.tip ∧ KnownShallow r.order answers

theorem knownEmpty_of_cancelled {env : OcEnv P} {w w' : OcWorld} {i : OcInput} {id : OrderId}
    {r r' : OcRow} (hw : (ocSystem env).Reachable w) (h : (ocSystem env).step w i = some w')
    (hr : getOc id w.db = some r) (hr' : getOc id w'.db = some r') (hs : r.order.state = .bonded)
    (hs' : r'.order.state = .cancelled) : KnownEmpty w i r := by
  obtain ⟨r₁, hr₁, hrow⟩ := (step_next h).row hr
  obtain rfl := Option.some.inj (hr'.symm.trans hr₁)
  obtain ⟨o', hchange, ho'⟩ := hrow.change (by rw [hs, hs']; simp)
  have hact : Judged env w i r.order .cancel := hchange.cancels hs (ho'.trans hs')
  obtain ⟨answers, price, p, rest, facts, r₂, rfl, hpoll, ho, hv, hr₂, -, hfacts, ha⟩ :=
    hact.asked hw
  rw [orderId_of_getOc hr, hr] at hr₂
  obtain rfl := Option.some.inj hr₂
  obtain ⟨hverdict, hpos, hpast⟩ := cancel_of_decide hs ha.symm
  have haddress := addressed_of_reachable hw hr (by rw [hs]; rfl)
  obtain ⟨f, hf, hnone⟩ := judgeFunding_none hverdict
  have hfunds : facts.funds = .known f := hf
  rw [(gather_ok hfacts).1, fundsOf_eq haddress] at hfunds
  refine ⟨answers, price, p, rest, f, rfl, hpoll, ho, hv, hfunds, hnone, ?_⟩
  cases hd : r.order.fundingDeadline with
  | none =>
    rw [hd] at hpos
    exact absurd hpos (by simp)
  | some d =>
    rw [hd] at hpos hpast
    exact ⟨d, rfl, hpos, hpast⟩

theorem knownBack_of_bonded {env : OcEnv P} {w w' : OcWorld} {i : OcInput} {id : OrderId}
    {r r' : OcRow} (hw : (ocSystem env).Reachable w) (h : (ocSystem env).step w i = some w')
    (hr : getOc id w.db = some r) (hr' : getOc id w'.db = some r')
    (hs : r.order.state = .funded ∨ r.order.state = .presigned) (hs' : r'.order.state = .bonded) :
    KnownBack w i r := by
  obtain ⟨r₁, hr₁, hrow⟩ := (step_next h).row hr
  obtain rfl := Option.some.inj (hr'.symm.trans hr₁)
  obtain ⟨o', hchange, ho'⟩ := hrow.change (by
    rw [hs']
    obtain hs | hs := hs <;> rw [hs] <;> simp)
  have hact : Judged env w i r.order .reorg := hchange.goesBack hs (ho'.trans hs')
  obtain ⟨answers, price, p, rest, facts, r₂, rfl, hpoll, ho, hv, hr₂, -, hfacts, ha⟩ :=
    hact.asked hw
  rw [orderId_of_getOc hr, hr] at hr₂
  obtain rfl := Option.some.inj hr₂
  obtain ⟨-, hpinned⟩ := reorg_of_decide ha.symm
  have haddress := addressed_of_reachable hw hr (by obtain hs | hs := hs <;> rw [hs] <;> rfl)
  refine ⟨answers, price, p, rest, rfl, hpoll, ho, hv, fundsOf_eq haddress, ?_⟩
  obtain ⟨n, hn⟩ | hgone := hpinned
  · exact knownShallow_of_gather (.inl ⟨n, rfl⟩) ((gather_ok hfacts).2 _ hn)
  · exact knownShallow_of_gather (.inr rfl) ((gather_ok hfacts).2 _ hgone)

/-- **The watcher acts on fresh, known facts**: facts of another version do nothing; facts that are
not known leave the order's data as it is, but for the time of the last signature request and, where
the funds of the address are known, the list of strays; an order is cancelled from `bonded` only on
an address that is known to have nothing confirmed, after the deadline; and it goes back to `bonded`
only on a pinned outpoint that is known not to be deep enough. -/
theorem acts_on_known_facts (env : OcEnv P) :
    (∀ w answers price w' p rest r, (ocSystem env).Reachable w → w.polling = p :: rest →
      (ocSystem env).step w (.judge answers price) = some w' →
      getOc p.order.orderId w.db = some r → r.version ≠ p.version → w'.db = w.db) ∧
    (∀ w answers price w' p rest r facts, (ocSystem env).Reachable w → w.polling = p :: rest →
      (ocSystem env).step w (.judge answers price) = some w' →
      getOc p.order.orderId w.db = some r → p.order.state.watched = true →
      gather env.lib p.order answers = .ok facts → facts.Unknown →
      ∃ r', getOc p.order.orderId w'.db = some r' ∧ SameButStrays r r' ∧
        ((∃ reason, facts.funds = .unknown reason) → SameData r r')) ∧
    (∀ w i w' id r r', (ocSystem env).Reachable w → (ocSystem env).step w i = some w' →
      getOc id w.db = some r → getOc id w'.db = some r' → r.order.state = .bonded →
      r'.order.state = .cancelled → KnownEmpty w i r) ∧
    (∀ w i w' id r r', (ocSystem env).Reachable w → (ocSystem env).step w i = some w' →
      getOc id w.db = some r → getOc id w'.db = some r' →
      (r.order.state = .funded ∨ r.order.state = .presigned) → r'.order.state = .bonded →
      KnownBack w i r) := by
  refine ⟨?_, ?_, ?_, ?_⟩
  · intro w answers price w' p rest r _ hpoll h hr hv
    exact judge_stale hpoll h hr hv
  · intro w answers price w' p rest r facts hw hpoll h hr hs hfacts hu
    exact judge_unknown hw hpoll h hr hs hfacts hu
  · intro w i w' id r r' hw h hr hr' hs hs'
    exact knownEmpty_of_cancelled hw h hr hr' hs hs'
  · intro w i w' id r r' hw h hr hr' hs hs'
    exact knownBack_of_bonded hw h hr hr' hs hs'

/-- Whatever is not known leaves all data but the time of the last signature request. -/
def UnknownLeavesData (env : OcEnv P) : Prop :=
  ∀ w answers price w' p rest r facts, (ocSystem env).Reachable w → w.polling = p :: rest →
    (ocSystem env).step w (.judge answers price) = some w' →
    getOc p.order.orderId w.db = some r → p.order.state.watched = true →
    gather env.lib p.order answers = .ok facts → facts.Unknown →
    ∃ r', getOc p.order.orderId w'.db = some r' ∧ SameData r r'

/-- The list does not have the funding, but another output; who has spent the funding is not
known. -/
def strayAnswers : ChainAnswers :=
  { tradeAnswers with
    utxos := .known [⟨"cdcdcdcdcdcdcdcdcdcdcdcdcdcdcdcdcdcdcdcdcdcdcdcdcdcdcdcdcdcdcdcd", 0, 700, some 99⟩]
    outspend := .unknown "HTTP 502" }

/-- The funded trade is judged on these answers. -/
theorem stray_run :
    ∃ w w' p rest r r' facts, (ocSystem tradeEnv).Reachable w ∧ w.polling = p :: rest ∧
      (ocSystem tradeEnv).step w (.judge strayAnswers none) = some w' ∧
      getOc p.order.orderId w.db = some r ∧ p.order.state.watched = true ∧
      gather tradeEnv.lib p.order strayAnswers = .ok facts ∧ facts.Unknown ∧
      getOc p.order.orderId w'.db = some r' ∧ r'.ocMeta.strays ≠ r.ocMeta.strays := by
  have hrun : (((ocSystem tradeEnv).run (OcWorld.init 0) (tradeInputs ++ [.poll])).bind fun w =>
      w.polling.head?.bind fun p =>
        ((ocSystem tradeEnv).step w (.judge strayAnswers none)).bind fun w' =>
          (getOc p.order.orderId w.db).bind fun r =>
            (gather tradeEnv.lib p.order strayAnswers).toOption.bind fun facts =>
              (getOc p.order.orderId w'.db).map fun r' => decide (p.order.state.watched = true ∧
                facts.pinned = some (.unknown "HTTP 502") ∧ r'.ocMeta.strays ≠ r.ocMeta.strays)) =
      some true := by
    unfold tradeEnv tradeLib sampleLib
    rw [samplePayment_eq, sampleSingle_eq]
    decide +kernel
  obtain ⟨w, hw, hrun⟩ := Option.bind_eq_some_iff.mp hrun
  obtain ⟨p, hp, hrun⟩ := Option.bind_eq_some_iff.mp hrun
  obtain ⟨w', hw', hrun⟩ := Option.bind_eq_some_iff.mp hrun
  obtain ⟨r, hr, hrun⟩ := Option.bind_eq_some_iff.mp hrun
  obtain ⟨facts, hfacts, hrun⟩ := Option.bind_eq_some_iff.mp hrun
  obtain ⟨r', hr', hrun⟩ := Option.map_eq_some_iff.mp hrun
  obtain ⟨hs, hpinned, hne⟩ := of_decide_eq_true hrun
  obtain ⟨rest, hpoll⟩ := List.head?_eq_some_iff.mp hp
  exact ⟨w, w', p, rest, r, r', facts, reachable_of_run hw, hpoll, hw', hr, hs,
    ok_of_toOption hfacts, .inr ⟨_, hpinned⟩, hr', hne⟩

/-- The stray is noted although the state of the pinned outpoint is not known. -/
theorem strays_noted_unknown : ¬ UnknownLeavesData tradeEnv := by
  intro hclaim
  obtain ⟨w, w', p, rest, r, r', facts, hw, hpoll, h, hr, hs, hfacts, hu, hr', hne⟩ := stray_run
  obtain ⟨r₁, hr₁, -, -, hm⟩ := hclaim w _ _ w' p rest r facts hw hpoll h hr hs hfacts hu
  obtain rfl := Option.some.inj (hr'.symm.trans hr₁)
  have hstrays := congrArg (fun m : OcMeta => m.strays) hm
  exact hne hstrays

/-- All else is as it was. -/
theorem acts_on_known_facts_stray :
    ∃ (w w' : OcWorld) (p r r' : OcRow), (ocSystem tradeEnv).Reachable w ∧
      (ocSystem tradeEnv).step w (.judge strayAnswers none) = some w' ∧
      getOc p.order.orderId w.db = some r ∧ getOc p.order.orderId w'.db = some r' ∧
      SameButStrays r r' := by
  obtain ⟨w, w', p, rest, r, -, facts, hw, hpoll, h, hr, hs, hfacts, hu, -, -⟩ := stray_run
  obtain ⟨r', hr', hsame, -⟩ :=
    (acts_on_known_facts tradeEnv).2.1 w _ _ w' p rest r facts hw hpoll h hr hs hfacts hu
  exact ⟨w, w', p, r, r', hw, h, hr, hr', hsame⟩

end LnPay
