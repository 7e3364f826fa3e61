/-
# A decision on an on-chain order is final

Once a settlement has been decided on, the order is past the states in which a
trade goes on and stays there: accounts, presignatures and claims to have paid are
shut out whatever the order they come in.  The kind itself changes in three ways
only: an account dispute is resolved, the chain shows another spend, or the
customer releases the money after all.
-/
import LnPay.OcFacts
import LnPay.OcRuns
import LnPay.SignSound

namespace LnPay

variable {P : Type}

/-- The states in which a trade goes on. -/
def OnchainState.trading : OnchainState → Bool
  | .listed | .bonded | .funded | .presigned | .remitted => true
  | .disputed | .refunding | .settling | .released | .refunded | .sponsorWins | .customerWins
  | .cancelled | .swept => false

/-- What is decided is past trading, and what is sent out is decided. -/
structure OcRow.Shut (r : OcRow) : Prop where
  decided : r.order.settlementKind ≠ none → r.order.state.trading = false
  sent : r.ocMeta.outbox ≠ none → r.order.settlementKind ≠ none

section Restamp

variable (o p : OnchainOrder) (now : ℤ)

@[simp] theorem restamp_state : (o.restamp p now).state = p.state := rfl

@[simp] theorem restamp_settlementKind :
    (o.restamp p now).settlementKind = p.settlementKind := rfl

@[simp] theorem restamp_settlementTxid :
    (o.restamp p now).settlementTxid = p.settlementTxid := rfl

@[simp] theorem restamp_accountSentAt : (o.restamp p now).accountSentAt = p.accountSentAt := rfl

@[simp] theorem restamp_presignedAt : (o.restamp p now).presignedAt = p.presignedAt := rfl

end Restamp

/-- No way leads back into trading. -/
theorem trading_source {s t : OnchainState} (h : t = s ∨ canOnchainTransition s t = true)
    (ht : t.trading = true) : s.trading = true := by
  obtain rfl | h := h
  · exact ht
  · revert h ht
    cases s <;> cases t <;> decide

/-- A settlement is only decided on where a trade can still be decided. -/
theorem mayDecide_state {kind : SettlementKind} {fold : Bool} {o : OnchainOrder}
    (h : OcCtx.mayDecide kind fold o = true) :
    o.settlementKind = none ∧ (OcCtx.isRuling kind = true → o.state = .disputed) := by
  unfold OcCtx.mayDecide at h
  obtain ⟨hnone, hstate⟩ := (Bool.and_eq_true _ _).mp h
  refine ⟨Option.isNone_iff_eq_none.mp hnone, fun hruling => ?_⟩
  cases kind with
  | sponsorWin | customerWin => exact of_decide_eq_true hstate
  | release => exact absurd hstate (by simp)
  | refundReserve | refundSponsorTimeout | refundCustomerLate | refundBondExpired
  | refundAccountDisputed => exact absurd hruling (by simp [OcCtx.isRuling])

/-- The end of a kind is past trading. -/
theorem terminal_trading (kind : SettlementKind) : kind.terminal.trading = false := by
  cases kind <;> rfl

/-- Every change keeps a decided order past trading. -/
theorem OcChange.shut {c : OcCause} {o o' : OnchainOrder} {m m' : OcMeta}
    (h : OcChange c o m o' m')
    (hlegal : o'.state = o.state ∨ canOnchainTransition o.state o'.state = true)
    (hd : o.settlementKind ≠ none → o.state.trading = false)
    (hs : m.outbox ≠ none → o.settlementKind ≠ none) :
    (o'.settlementKind ≠ none → o'.state.trading = false) ∧
      (m'.outbox ≠ none → o'.settlementKind ≠ none) := by
  -- a trading order is undecided
  have hopen : o.state.trading = true → o.settlementKind = none := by
    intro htrading
    by_contra hk
    rw [hd hk] at htrading
    exact absurd htrading (by simp)
  cases h with
  | bond sponsor info adminXonly address blocks hash expiresAt hlisted ha =>
    have hk := hopen (by rw [hlisted]; rfl)
    exact ⟨fun hne => absurd hk hne, hs⟩
  | fund outpoint confirmations priceKrw fee hact =>
    have hk := hopen (trading_source hlegal rfl)
    exact ⟨fun hne => absurd hk hne, hs⟩
  | decide kind feeSat fold o₁ hmay ho hb =>
    subst ho
    obtain ⟨-, hruling⟩ := mayDecide_state hmay
    refine ⟨fun _ => ?_, fun _ => Option.some_ne_none _⟩
    dsimp only
    split
    · rename_i hr
      rw [hruling hr]
      rfl
    · rfl
  | presig psbt hfunded hk => exact ⟨fun hne => absurd hk hne, hs⟩
  | account commitment hpresigned hk ha => exact ⟨fun hne => absurd hk hne, hs⟩
  | remit hpresigned hk => exact ⟨fun hne => absurd hk hne, hs⟩
  | dispute hremitted => exact ⟨fun _ => rfl, hs⟩
  | objection hpresigned hk => exact ⟨fun hne => absurd hk hne, hs⟩
  | cancel hlisted => exact ⟨fun _ => rfl, hs⟩
  | reorg hact =>
    have hk := hopen (trading_source hlegal rfl)
    exact ⟨fun hne => absurd hk hne, hs⟩
  | cosign kind txid rawHex hk hcan hc hcompletes => exact ⟨fun _ => rfl, fun _ => Option.some_ne_none _⟩
  | adopt txid leaf kind settlingAt hk hact => exact ⟨fun _ => rfl, fun _ => Option.some_ne_none _⟩
  | sweep txid hact => exact ⟨fun _ => rfl, hs⟩
  | confirmed kind hk hact => exact ⟨fun _ => terminal_trading kind, hs⟩
  | resolve kind hk hkind hstate hres =>
    refine ⟨fun _ => hd (by rw [hk]; exact Option.some_ne_none _), fun _ => Option.some_ne_none _⟩

theorem RowStep.shut {c : OcCause} {r r' : OcRow} (h : RowStep c r r') (hr : r.Shut) : r'.Shut := by
  cases h with
  | noted ho hm hv =>
    have hout : r'.ocMeta.outbox = r.ocMeta.outbox := OcMeta.of_record OcMeta.outbox (fun _ => rfl) hm
    exact ⟨by rw [ho]; exact hr.decided, by rw [ho, hout]; exact hr.sent⟩
  | changed o' hchange hlegal ho hv =>
    obtain ⟨hd, hs⟩ := hchange.shut hlegal hr.decided hr.sent
    exact ⟨by rw [ho]; exact hd, by rw [ho]; exact hs⟩

/-- In every run, what is decided is past trading. -/
theorem shut_of_reachable {env : OcEnv P} {w : OcWorld} (hw : (ocSystem env).Reachable w)
    {id : OrderId} {r : OcRow} (hr : getOc id w.db = some r) : r.Shut :=
  rows_invariant (fun _ hfr => ⟨fun hk => absurd hfr.undecided hk, fun ho => absurd hfr.unsent ho⟩)
    (fun _ _ _ _ hstep => hstep.shut) hw hr

/-! ## What may still happen to a decided order -/

/-- The ways in which the kind of a decided order changes. -/
inductive KindNext (c : OcCause) (o o' : OnchainOrder) : Prop
  | kept (h : o'.settlementKind = o.settlementKind)
  | resolved (h : c.resolves o) (hk : o.settlementKind = some .refundAccountDisputed)
      (hk' : o'.settlementKind = some .refundCustomerLate ∨
        o'.settlementKind = some .refundSponsorTimeout)
  | adopted (txid : String) (leaf : Option EscrowLeafName) (h : c.acts o (.observeSpend txid leaf))
      (hk : o'.settlementKind = OcCtx.adoptedKind o leaf) (hs : o'.settlementTxid = some txid)
  | released (h : c.cosigns o .release) (hs : o.state = .disputed)
      (hk : o'.settlementKind = some .release)

/-- What one step leaves of a decided order. -/
structure DecidedNext (c : OcCause) (r r' : OcRow) : Prop where
  decided : r'.order.settlementKind ≠ none
  trading : r'.order.state.trading = false
  account : r'.order.accountSentAt = r.order.accountSentAt
  commitment : r'.ocMeta.accountCommitment = r.ocMeta.accountCommitment
  presignedAt : r'.order.presignedAt = r.order.presignedAt
  presig : r'.ocMeta.presigPsbt = r.ocMeta.presigPsbt
  kind : KindNext c r.order r'.order

/-- One change of a decided order. -/
theorem OcChange.decided {c : OcCause} {o o' : OnchainOrder} {m m' : OcMeta}
    (h : OcChange c o m o' m')
    (hlegal : o'.state = o.state ∨ canOnchainTransition o.state o'.state = true)
    (hk : o.settlementKind ≠ none) (ht : o.state.trading = false) :
    o'.settlementKind ≠ none ∧ o'.accountSentAt = o.accountSentAt ∧
      m'.accountCommitment = m.accountCommitment ∧ o'.presignedAt = o.presignedAt ∧
      m'.presigPsbt = m.presigPsbt ∧ KindNext c o o' := by
  have hclosed : o'.state.trading = true → False := fun htrading => by
    rw [trading_source hlegal htrading] at ht
    exact absurd ht (by simp)
  cases h with
  | bond => exact (hclosed rfl).elim
  | fund => exact (hclosed rfl).elim
  | decide kind feeSat fold o₁ hmay ho hb =>
    subst ho
    exact absurd (mayDecide_state hmay).1 hk
  | presig psbt hfunded hnone => exact absurd hnone hk
  | account commitment hpresigned hnone ha => exact absurd hnone hk
  | remit hpresigned hnone => exact absurd hnone hk
  | dispute hremitted => exact ⟨hk, rfl, rfl, rfl, rfl, .kept rfl⟩
  | objection hpresigned hnone => exact absurd hnone hk
  | cancel hlisted => exact ⟨hk, rfl, rfl, rfl, rfl, .kept rfl⟩
  | reorg hact => exact (hclosed rfl).elim
  | cosign kind txid rawHex hkind hcan hc hcompletes =>
    refine ⟨Option.some_ne_none _, rfl, rfl, rfl, rfl, ?_⟩
    obtain rfl | hsame := hkind
    · -- a release is signed where money is claimed to have been sent, or in a dispute
      have hstate : o.state = .remitted ∨ o.state = .disputed := by
        simpa [canActOnSignRequest, signPurposeFor] using hcan
      obtain hremitted | hdisputed := hstate
      · rw [hremitted] at ht
        exact absurd ht (by simp [OnchainState.trading])
      · exact .released hc hdisputed rfl
    · exact .kept hsame.symm
  | adopt txid leaf kind settlingAt hadopted hact =>
    exact ⟨Option.some_ne_none _, rfl, rfl, rfl, rfl, .adopted txid leaf hact hadopted.symm rfl⟩
  | sweep txid hact => exact ⟨hk, rfl, rfl, rfl, rfl, .kept rfl⟩
  | confirmed kind hsome hact => exact ⟨hk, rfl, rfl, rfl, rfl, .kept rfl⟩
  | resolve kind hdisputed hkind hstate hres =>
    refine ⟨Option.some_ne_none _, rfl, rfl, rfl, rfl, .resolved hres hdisputed ?_⟩
    exact hkind.imp (congrArg some) (congrArg some)

theorem RowStep.decided {c : OcCause} {r r' : OcRow} (h : RowStep c r r') (hr : r.Shut)
    (hk : r.order.settlementKind ≠ none) : DecidedNext c r r' := by
  have hshut := h.shut hr
  cases h with
  | noted ho hm hv =>
    have hk' : r'.order.settlementKind ≠ none := by rw [ho]; exact hk
    exact ⟨hk', hshut.decided hk', by rw [ho],
      OcMeta.of_record OcMeta.accountCommitment (fun _ => rfl) hm, by rw [ho],
      OcMeta.of_record OcMeta.presigPsbt (fun _ => rfl) hm, .kept (by rw [ho])⟩
  | changed o' hchange hlegal ho hv =>
    obtain ⟨hk', haccount, hcommitment, hpresignedAt, hpresig, hkind⟩ :=
      hchange.decided hlegal hk (hr.decided hk)
    have hk'' : r'.order.settlementKind ≠ none := by rw [ho]; exact hk'
    refine ⟨hk'', hshut.decided hk'', by rw [ho]; exact haccount, hcommitment,
      by rw [ho]; exact hpresignedAt, hpresig, ?_⟩
    rw [ho]
    cases hkind with
    | kept hsame => exact .kept hsame
    | resolved hres hkind hnew => exact .resolved hres hkind hnew
    | adopted txid leaf hact hnew htxid => exact .adopted txid leaf hact hnew htxid
    | released hc hs hnew => exact .released hc hs hnew

/-- What a run leaves of a decided order. -/
structure OcClosed (r r' : OcRow) : Prop where
  decided : r'.order.settlementKind ≠ none
  trading : r'.order.state.trading = false
  account : r'.order.accountSentAt = r.order.accountSentAt
  commitment : r'.ocMeta.accountCommitment = r.ocMeta.accountCommitment
  presignedAt : r'.order.presignedAt = r.order.presignedAt
  presig : r'.ocMeta.presigPsbt = r.ocMeta.presigPsbt

/-- **The run lemma**: however a run goes on, a decided order stays decided. -/
theorem decided_run {env : OcEnv P} {w w' : OcWorld} {is : List OcInput}
    (hw : (ocSystem env).Reachable w) (hrun : (ocSystem env).run w is = some w') {id : OrderId}
    {r : OcRow} (hr : getOc id w.db = some r) (hk : r.order.settlementKind ≠ none) :
    ∃ r', getOc id w'.db = some r' ∧ OcClosed r r' := by
  induction is generalizing w r with
  | nil =>
    obtain rfl := Option.some.inj hrun
    exact ⟨r, hr, hk, (shut_of_reachable hw hr).decided hk, rfl, rfl, rfl, rfl⟩
  | cons i is ih =>
    obtain ⟨w₁, hstep, hrun⟩ := Option.bind_eq_some_iff.mp hrun
    obtain ⟨r₁, hr₁, hrow⟩ := (step_next hstep).row hr
    have hnext := hrow.decided (shut_of_reachable hw hr) hk
    obtain ⟨r', hr', hclosed⟩ := ih (hw.next hstep) hrun hr₁ hnext.decided
    exact ⟨r', hr', hclosed.decided, hclosed.trading, hclosed.account.trans hnext.account,
      hclosed.commitment.trans hnext.commitment, hclosed.presignedAt.trans hnext.presignedAt,
      hclosed.presig.trans hnext.presig⟩

/-! ## What is shut out -/

/-- A request that is not accepted: it is answered otherwise, and the ledger is as before. -/
def OcRefused (db : OcDb) (answer : OcAnswer) (db' : OcDb) : Prop := answer ≠ .ok ∧ db' = db

theorem refused_of_ignored {reason : String} {db db' : OcDb} {answer : OcAnswer}
    (h : OcCtx.ignored reason db = .ok (answer, db')) : OcRefused db answer db' := by
  obtain ⟨rfl, rfl⟩ := Prod.mk.inj (Except.ok.inj h)
  exact ⟨by simp, rfl⟩

theorem refused_of_reject {event : OcEvent} {text : String} {db db' : OcDb} {answer : OcAnswer}
    (h : OcCtx.reject event text db = .ok (answer, db')) : OcRefused db answer db' := by
  obtain ⟨rfl, rfl⟩ := Prod.mk.inj (Except.ok.inj h)
  exact ⟨by simp, rfl⟩

/-- A request about an order goes to its row. -/
theorem withRow_some {event : OcEvent} {db : OcDb} {handler : OcEvent → OcRow → OcDb → OcHandled}
    {id : OrderId} {r : OcRow} (hid : given (extractOrderId event.tags) = some id)
    (hr : getOc id db = some r) : OcCtx.withRow event db handler = handler event r db := by
  simp only [OcCtx.withRow, hid, hr]

/-- A presignature, an account or a claim to have paid for a decided order is refused. -/
theorem refused_of_decided {ctx : OcCtx P} {action : OcAction} {event : OcEvent} {db db' : OcDb}
    {answer : OcAnswer} {id : OrderId} {r : OcRow}
    (ha : action = .presig ∨ action = .accountInfo ∨ action = .remitRequest)
    (hid : given (extractOrderId event.tags) = some id) (hr : getOc id db = some r)
    (hk : r.order.settlementKind ≠ none)
    (h : ctx.handleOc action event db = .ok (answer, db')) : OcRefused db answer db' := by
  have hsome : r.order.settlementKind.isSome = true := Option.isSome_iff_ne_none.mpr hk
  obtain rfl | rfl | rfl := ha
  · change OcCtx.withRow event db ctx.ocPresig = .ok (answer, db') at h
    rw [withRow_some hid hr, OcCtx.ocPresig] at h
    dsimp only at h
    split at h
    · exact refused_of_ignored h
    · rw [if_pos (.inr hsome)] at h
      exact refused_of_reject h
  · change OcCtx.withRow event db ctx.ocAccountInfo = .ok (answer, db') at h
    rw [withRow_some hid hr, OcCtx.ocAccountInfo] at h
    split at h
    · exact refused_of_ignored h
    · rw [if_pos (.inr (.inr hsome))] at h
      exact refused_of_ignored h
  · change OcCtx.withRow event db ctx.ocRemit = .ok (answer, db') at h
    rw [withRow_some hid hr, OcCtx.ocRemit] at h
    split at h
    · exact refused_of_ignored h
    · rw [if_pos (.inr hsome)] at h
      exact refused_of_reject h

/-- A cosignature of a refund is taken in `refunding` only. -/
theorem refunding_of_cosign {ctx : OcCtx P} {event : OcEvent} {db db' : OcDb}
    (hp : (tagValue event.tags "purpose").bind signPurposeOf = some .refund)
    (h : ctx.handleOc .cosign event db = .ok (.ok, db')) :
    ∃ id r, given (extractOrderId event.tags) = some id ∧ getOc id db = some r ∧
      r.order.state = .refunding := by
  change OcCtx.withRow event db ctx.ocCosign = .ok (.ok, db') at h
  unfold OcCtx.withRow at h
  split at h
  · exact absurd rfl (refused_of_ignored h).1
  · rename_i id hid
    split at h
    · exact absurd rfl (refused_of_ignored h).1
    · rename_i r hr
      refine ⟨id, r, hid, hr, ?_⟩
      unfold OcCtx.ocCosign at h
      rw [hp] at h
      dsimp only at h
      split at h
      · exact absurd rfl (refused_of_ignored h).1
      · rename_i hcan
        simpa [canActOnSignRequest] using hcan

/-! ## The result -/

/-- A judge step of a poll that was told of a spend of the order's outpoint, by this transaction and
through this leaf of the order's escrow. -/
def SpendSeen (lib : BtcSigner P) (i : OcInput) (o : OnchainOrder) (txid : String)
    (leaf : Option EscrowLeafName) : Prop :=
  ∃ answers price confirmed witness descriptor, i = .judge answers price ∧
    answers.outspend = .known (.spent txid confirmed witness) ∧
    deriveEscrowAddress lib ⟨o.customerXonly.getD "undefined", o.sponsorXonly.getD "undefined",
      o.adminXonly.getD "undefined"⟩ o.network o.timelockBlocks = .ok descriptor ∧
    leaf = leafOfWitness witness descriptor.leaves

theorem Judged.spendSeen {env : OcEnv P} {w : OcWorld} {i : OcInput} {o : OnchainOrder}
    {txid : String} {leaf : Option EscrowLeafName} (hw : (ocSystem env).Reachable w)
    (h : Judged env w i o (.observeSpend txid leaf)) : SpendSeen env.lib i o txid leaf := by
  obtain ⟨answers, price, row, rest, facts, r, rfl, -, -, -, -, -, hfacts, ha⟩ := h.asked hw
  obtain ⟨confirmed, hpinned⟩ := observeSpend_of_decide ha.symm
  obtain ⟨witness, descriptor, hspent, hdescriptor, hleaf⟩ :=
    spent_of_gather ((gather_ok hfacts).2 _ hpinned)
  exact ⟨answers, price, confirmed, witness, descriptor, rfl, hspent, hdescriptor, hleaf⟩

/-- What a step leaves of a decision: the order stays past trading, nothing more is accepted, and the
kind changes by a resolved account dispute, by a spend that was seen on the chain, or by the
customer's release in a dispute. -/
structure DecisionKept (lib : BtcSigner P) (i : OcInput) (r r' : OcRow) : Prop where
  closed : OcClosed r r'
  kind : r'.order.settlementKind = r.order.settlementKind ∨
    (r.order.settlementKind = some .refundAccountDisputed ∧
      (r'.order.settlementKind = some .refundCustomerLate ∨
        r'.order.settlementKind = some .refundSponsorTimeout) ∧
      ∃ accountBad version price,
        i = .command (.accountDispute accountBad) r.order.orderId version price) ∨
    (∃ txid leaf, SpendSeen lib i r.order txid leaf ∧
      r'.order.settlementKind = OcCtx.adoptedKind r.order leaf ∧
      r'.order.settlementTxid = some txid) ∨
    (r.order.state = .disputed ∧ r'.order.settlementKind = some .release ∧
      ∃ event price, i = .request .cosign event price ∧ event.pubkey = r.order.customerPubkey)

/-- **A decision is final**, at every step of every run and over the rest of the run; a refund is
cosigned in `refunding` only, and after a completed refund nothing is ever remitted. -/
theorem decision_is_final (env : OcEnv P) :
    (∀ w i w' id r, (ocSystem env).Reachable w → (ocSystem env).step w i = some w' →
      getOc id w.db = some r → r.order.settlementKind ≠ none →
      ∃ r', getOc id w'.db = some r' ∧ DecisionKept env.lib i r r') ∧
    (∀ w is w' id r, (ocSystem env).Reachable w → (ocSystem env).run w is = some w' →
      getOc id w.db = some r → r.order.settlementKind ≠ none →
      ∃ r', getOc id w'.db = some r' ∧ OcClosed r r') ∧
    (∀ (ctx : OcCtx P) action event db answer db' id r,
      (action = .presig ∨ action = .accountInfo ∨ action = .remitRequest) →
      given (extractOrderId event.tags) = some id → getOc id db = some r →
      r.order.settlementKind ≠ none → ctx.handleOc action event db = .ok (answer, db') →
      OcRefused db answer db') ∧
    (∀ (ctx : OcCtx P) event db db',
      (tagValue event.tags "purpose").bind signPurposeOf = some .refund →
      ctx.handleOc .cosign event db = .ok (.ok, db') →
      ∃ id r, given (extractOrderId event.tags) = some id ∧ getOc id db = some r ∧
        r.order.state = .refunding) ∧
    (∀ w is w' id r outbox, (ocSystem env).Reachable w → (ocSystem env).run w is = some w' →
      getOc id w.db = some r → r.ocMeta.outbox = some outbox → isRefundKind outbox.kind = true →
      ∃ r', getOc id w'.db = some r' ∧ r'.order.state ≠ .remitted) := by
  refine ⟨?_, ?_, ?_, ?_, ?_⟩
  · intro w i w' id r hw hstep hr hk
    obtain ⟨r', hr', hrow⟩ := (step_next hstep).row hr
    have hnext := hrow.decided (shut_of_reachable hw hr) hk
    refine ⟨r', hr', ⟨hnext.decided, hnext.trading, hnext.account, hnext.commitment,
      hnext.presignedAt, hnext.presig⟩, ?_⟩
    cases hnext.kind with
    | kept h => exact .inl h
    | resolved h hk hk' => exact .inr (.inl ⟨hk, hk', h⟩)
    | adopted txid leaf h hk hs => exact .inr (.inr (.inl ⟨txid, leaf, h.spendSeen hw, hk, hs⟩))
    | released h hs hk =>
      obtain ⟨event, price, hi, hsender⟩ := h
      exact .inr (.inr (.inr ⟨hs, hk, event, price, hi, Option.some.inj hsender⟩))
  · intro w is w' id r hw hrun hr hk
    exact decided_run hw hrun hr hk
  · intro ctx action event db answer db' id r ha hid hr hk h
    exact refused_of_decided ha hid hr hk h
  · intro ctx event db db' hp h
    exact refunding_of_cosign hp h
  · intro w is w' id r outbox hw hrun hr ho _
    have hk := (shut_of_reachable hw hr).sent (by rw [ho]; exact Option.some_ne_none _)
    obtain ⟨r', hr', hclosed⟩ := decided_run hw hrun hr hk
    refine ⟨r', hr', fun hremitted => ?_⟩
    have hopen := hclosed.trading
    rw [hremitted] at hopen
    exact absurd hopen (by simp [OnchainState.trading])

/-! ## A trade -/

/-- The library on the keys of the trade. -/
def tradeLib : BtcSigner String :=
  { sampleLib with
    p2tr := fun _ tree _ => if tree.isSome then .ok samplePayment else .ok sampleSingle }

/-- The daemon of the trade. -/
def tradeEnv : OcEnv String where
  lib := tradeLib
  keys := ⟨fun label => label, fun _ _ h => h⟩
  network := .mainnet
  adminKeyOf _ := []
  adminXonlyOf _ := refundKeys.admin
  toPsbtBase64 _ := samplePsbt
  finalizedHex _ := .error "Not enough signatures"
  toNumber s := if s = "3600" then some 3600 else none

/-- The funding transaction of the trade. -/
def tradeTxid : String := "abababababababababababababababababababababababababababababababab"

/-- What the explorer says when the funding has one confirmation. -/
def tradeAnswers : ChainAnswers where
  utxos := .known [⟨tradeTxid, 1, 50000, some 100⟩]
  tip := .known 100
  outspend := .known .unspent
  fundingTx := .found true (some 100)
  fundingTip := .known 100
  settlementTx := .notFound
  settlementTip := .known 100

theorem refundKeys_customer : isHex64 refundKeys.customer = true := by decide +kernel

theorem refundKeys_sponsor : isHex64 refundKeys.sponsor = true := by decide +kernel

/-- A sale to a named sponsor, who claims it; then the funding confirms. -/
def tradeInputs : List OcInput :=
  [.refreshFees ⟨10, 5⟩,
    .request .designatedOrderRequest ⟨"e1", refundKeys.customer, refundKeys_customer, 0,
      [["a", "38383:daemon:trade-1"], ["expiration", "3600"]], .payload ⟨none, none, none, none,
        some ⟨50000, refundKeys.customer, none, sampleSingle.address.getD "", refundKeys.sponsor⟩⟩⟩
      none,
    .request .claim ⟨"e2", refundKeys.sponsor, refundKeys_sponsor, 0,
      [["a", "38383:daemon:trade-1"], ["sponsor-xonly", refundKeys.sponsor]],
      .payload ⟨none, sampleSingle.address, some 2, none, none⟩⟩ none,
    .poll, .judge tradeAnswers (some 100000000)]

/-- The presignature comes too late. -/
def latePresig : OcInput :=
  .request .presig ⟨"e3", refundKeys.sponsor, refundKeys_sponsor, 0,
    [["a", "38383:daemon:trade-1"]], .payload ⟨none, none, none, some samplePsbt, none⟩⟩ none

theorem reachable_of_run {env : OcEnv P} {is : List OcInput} {w : OcWorld}
    (h : (ocSystem env).run (OcWorld.init 0) is = some w) : (ocSystem env).Reachable w :=
  TransitionSystem.Reachable.run (.init ⟨0, rfl⟩) h

/-- The sponsor does not sign in time, the refund is decided on, and his presignature changes
nothing. -/
theorem decision_is_final_late :
    ∃ w w' r r', (ocSystem tradeEnv).Reachable w ∧ getOc "trade-1" w.db = some r ∧
      r.order.settlementKind = some .refundSponsorTimeout ∧
      (ocSystem tradeEnv).step w latePresig = some w' ∧ getOc "trade-1" w'.db = some r' ∧
      DecisionKept tradeLib latePresig r r' := by
  have hrun : (((ocSystem tradeEnv).run (OcWorld.init 0) (tradeInputs ++
      [.tick 1000, .refreshFees ⟨10, 5⟩, .poll, .judge tradeAnswers none])).bind fun w =>
        (getOc "trade-1" w.db).map fun r => r.order.settlementKind) =
          some (some .refundSponsorTimeout) := by
    unfold tradeEnv tradeLib sampleLib
    rw [samplePayment_eq, sampleSingle_eq]
    decide +kernel
  obtain ⟨w, hw, hrow⟩ := Option.bind_eq_some_iff.mp hrun
  obtain ⟨r, hr, hk⟩ := Option.map_eq_some_iff.mp hrow
  have hreach := reachable_of_run hw
  obtain ⟨r', hr', hkept⟩ := (decision_is_final tradeEnv).1 w latePresig _ "trade-1" r hreach rfl hr
    (by rw [hk]; exact Option.some_ne_none _)
  exact ⟨w, _, r, r', hreach, hr, hk, rfl, hr', hkept⟩

end LnPay
