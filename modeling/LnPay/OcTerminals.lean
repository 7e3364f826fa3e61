/-
# What the ends of an order rest on

An order ends by a transaction of the chain: released, refunded, won by one side,
or swept through the timelock.  Through `settling` it ends only on a settlement
with enough confirmations.  A sweep is recorded at once when it is seen: the
confirmations of a spend are not counted, only whether it has one.

  settlement, status asked for ─→ confirmations counted ─→ the end of its kind
  timelock leaf, spend seen ─────────────────────────────→ swept
-/
import LnPay.OcWinner
import LnPay.OcTotality

namespace LnPay

variable {P : Type}

/-! ## Ends on facts -/

/-- The ends that rest on a transaction. -/
def OnchainState.onChainEnd : OnchainState → Bool
  | .released | .refunded | .sponsorWins | .customerWins | .swept => true
  | _ => false

example : OnchainState.swept.onChainEnd = true ∧ OnchainState.cancelled.onChainEnd = false := by
  decide +kernel

/-- The answers show that a transaction has this many confirmations: the status of the settlement on
record has been asked for, and a confirmed spend has one. -/
inductive ShowsConfirmations (answers : ChainAnswers) (o : OnchainOrder) (txid : String) (n : ℕ) : Prop
  | status (status : TxStatus) (hs : o.state = .settling) (htxid : o.settlementTxid = some txid)
      (hstatus : getTxStatus answers.settlementTx answers.settlementTip = .known status)
      (hconfirmed : status.confirmed = true) (hn : n ≤ status.confirmations)
  | spend (witness : Option (List String))
      (hspend : answers.outspend = .known (.spent txid true witness)) (hn : n ≤ 1)

/-- The step ends no order but on facts that show a transaction which spends the pinned outpoint, with
as many confirmations as the amount requires. -/
def EndsConfirmed (env : OcEnv P) (chain : Outpoint → String → List String → Prop) (w : OcWorld)
    (i : OcInput) : Prop :=
  ∀ w', w.step env i = some w' → ∀ id r r', getOc id w.db = some r → getOc id w'.db = some r' →
    r'.order.state ≠ r.order.state → r'.order.state.onChainEnd = true →
    ∃ answers price txid name, i = .judge answers price ∧ r'.order.settlementTxid = some txid ∧
      SpendsPinned env chain r'.order name txid ∧
      ShowsConfirmations answers r.order txid (requiredConfirmations r.order.amountSat)

/-- The row that is judged is up to date, its funding is seen to be spent through the timelock leaf by
a transaction that is not on record, and that this has enough confirmations is not known. -/
def SweptUnconfirmed (env : OcEnv P) (w : OcWorld) (i : OcInput) : Prop :=
  ∃ answers price p rest facts txid confirmed, i = .judge answers price ∧ w.polling = p :: rest ∧
    (getOc p.order.orderId w.db).map OcRow.version = some p.version ∧
    canOnchainTransition p.order.state .swept = true ∧
    gather env.lib p.order answers = .ok facts ∧
    facts.pinned = some (.spent txid (some .timelock) confirmed) ∧
    (p.order.state = .settling → ∃ t, given p.order.settlementTxid = some t ∧ txid ≠ t) ∧
    (confirmed = true → 1 < requiredConfirmations p.order.amountSat)

/-- A sweep that is seen is recorded, whatever the settlement on record. -/
theorem decide_sweep {order : OnchainOrder} {ctx : OnchainWatchContext} {txid : String}
    {confirmed : Bool} (hs : canOnchainTransition order.state .swept = true)
    (hf : (given order.fundingOutpoint).isSome = true)
    (hp : ctx.pinned = some (.spent txid (some .timelock) confirmed))
    (hsettling : order.state = .settling → ∃ t, given order.settlementTxid = some t ∧ txid ≠ t) :
    decideOnchainAction order ctx = .observeSpend txid (some .timelock) := by
  have hnone : (given order.fundingOutpoint).isNone = false := by
    rw [Option.isNone_eq_false_iff]
    exact hf
  unfold decideOnchainAction
  cases hstate : order.state with
  | listed | bonded | released | refunded | sponsorWins | customerWins | cancelled | swept =>
    rw [hstate] at hs
    exact absurd hs (by decide)
  | funded | presigned | remitted | disputed | refunding =>
    simp only [hnone, Bool.false_eq_true, if_false, decidePinned, hp, Option.getD_some]
  | settling =>
    obtain ⟨t, ht, hne⟩ := hsettling hstate
    simp only [hnone, Bool.false_eq_true, if_false, decideSettling, ht, hp, ne_eq, hne,
      not_false_eq_true, if_true]

/-- A pinned outpoint has been asked about only if there is one. -/
theorem outpoint_of_gather {lib : BtcSigner P} {order : OnchainOrder} {answers : ChainAnswers}
    {facts : Facts} {p : PinnedFacts} (h : gather lib order answers = .ok facts)
    (hp : facts.pinned = some p) : (given order.fundingOutpoint).isSome = true := by
  by_contra hnone
  unfold gather at h
  split at h
  · obtain rfl := Except.ok.inj h
    cases hp
  · obtain ⟨pinned, hpinned, h⟩ := Except.bind_eq_ok_iff.mp h
    obtain rfl := Except.ok.inj h
    obtain rfl := Except.ok.inj hpinned
    cases hp

/-- A settlement on record gives way only to another transaction. -/
theorem other_of_decide {order : OnchainOrder} {ctx : OnchainWatchContext} {txid : String}
    {leaf : Option EscrowLeafName} (h : decideOnchainAction order ctx = .observeSpend txid leaf)
    (hs : order.state = .settling) : ∃ t, given order.settlementTxid = some t ∧ txid ≠ t := by
  have hnot := (@decideSettlementTx_quiet order ctx).1 txid leaf
  unfold decideOnchainAction at h
  rw [hs] at h
  dsimp only at h
  split at h
  · cases h
  · unfold decideSettling at h
    split at h
    · cases h
    · rename_i t ht
      split at h
      · split at h
        · rename_i hne
          obtain ⟨rfl, rfl⟩ := OnchainAction.observeSpend.inj h
          exact ⟨t, ht, hne⟩
        · exact absurd h hnot
      · exact absurd h hnot

/-! ## One step -/

/-- An order ends on a sweep that is seen or on its settlement. -/
theorem OcChange.ends {c : OcCause} {o o' : OnchainOrder} {m m' : OcMeta}
    (h : OcChange c o m o' m') (hchanged : o'.state ≠ o.state) (hend : o'.state.onChainEnd = true) :
    o'.escrowed = o.escrowed ∧
      ((∃ txid, c.acts o (.observeSpend txid (some .timelock)) ∧ o'.settlementTxid = some txid) ∨
        (c.acts o .confirmed ∧ o'.settlementTxid = o.settlementTxid)) := by
  cases h with
  | bond | fund | reorg | presig | remit | dispute | cancel | cosign | adopt =>
    exact absurd hend (by simp [OnchainState.onChainEnd])
  | account | objection | resolve => exact absurd rfl hchanged
  | decide kind feeSat fold o₁ hmay ho hb =>
    subst ho
    dsimp only at hchanged hend
    split at hend
    · rename_i hruling
      exact absurd (if_pos hruling) hchanged
    · exact absurd hend (by decide)
  | sweep txid hact => exact ⟨rfl, .inl ⟨txid, hact, rfl⟩⟩
  | confirmed kind hk hact => exact ⟨rfl, .inr ⟨hact, rfl⟩⟩

section Step

variable {env : OcEnv P} {chain : Outpoint → String → List String → Prop} {w : OcWorld} {i : OcInput}

/-- Unless a sweep is seen that is not known to be deep enough, no end comes too early. -/
theorem endsConfirmed_of_not (hw : (ocSystem env).ReachableBy (SpendsTruthful chain) w)
    (hi : SpendsTruthful chain w i) (hnot : ¬ SweptUnconfirmed env w i) :
    EndsConfirmed env chain w i := by
  intro w' h id r r' hr hr' hchanged hend
  have hnext : OcNext (w.cause env i) w.db w'.db := step_next h
  obtain ⟨r₁, hr₁, hrow⟩ := hnext.row hr
  obtain rfl := Option.some.inj (hr'.symm.trans hr₁)
  cases hrow with
  | noted ho => exact absurd (congrArg OnchainOrder.state ho) hchanged
  | changed o' hchange hlegal ho hv =>
    rw [ho] at hchanged hend
    obtain ⟨hsame, ⟨txid, hact, htxid⟩ | ⟨hact, htxid⟩⟩ := hchange.ends hchanged hend
    · have hshown := hact.shown hw.reachable hi .timelock rfl
      obtain ⟨answers, price, p, rest, facts, r₂, rfl, hpoll, hp, hv', hget, hr₂, hfacts, ha⟩ :=
        hact.asked hw.reachable
      obtain ⟨confirmed, hpinned⟩ := observeSpend_of_decide ha.symm
      obtain ⟨witness, -, hspent, -, -⟩ := spent_of_gather ((gather_ok hfacts).2 _ hpinned)
      have hdeep : confirmed = true ∧ requiredConfirmations r.order.amountSat ≤ 1 := by
        by_contra hshallow
        refine hnot ⟨answers, price, p, rest, facts, txid, confirmed, rfl, hpoll, ?_, ?_,
          hp ▸ hfacts, hpinned, ?_, ?_⟩
        · rw [hp, hget, Option.map_some, hv']
        · obtain hs | hs | hs | hs | hs | hs := pinned_of_observeSpend ha.symm
          all_goals
            rw [hp, hs]
            decide
        · rw [hp]
          exact other_of_decide ha.symm
        · intro hconfirmed
          rw [hp]
          exact not_le.mp fun hle => hshallow ⟨hconfirmed, hle⟩
      obtain ⟨rfl, hrequired⟩ := hdeep
      have hspends : Settles env chain r.order .timelock txid := .inl hshown
      refine ⟨answers, price, txid, .timelock, rfl, ?_, ?_, .spend witness hspent hrequired⟩
      · rw [ho]
        exact htxid
      · rw [ho]
        exact hspends.spendsPinned.congr hsame
    · have hs : r.order.state = .settling := confirmed_of_decide hact.decided.choose_spec
      obtain ⟨kind, txid, -, hsettled, -, hsettles⟩ := winner_of_reachable hw hr (.inl hs)
      obtain ⟨answers, price, p, rest, facts, r₂, rfl, -, -, -, -, -, hfacts, ha⟩ :=
        hact.asked hw.reachable
      obtain ⟨status, hstatus, hconfirmed, hdeep⟩ := settled_of_decide ha.symm
      refine ⟨answers, price, txid, settlementLeafFor (settlementPathForKind kind), rfl, ?_, ?_,
        .status status hs hsettled (status_of_gather hfacts hstatus) hconfirmed hdeep⟩
      · rw [ho]
        exact htxid.trans hsettled
      · rw [ho]
        exact hsettles.spendsPinned.congr hsame

/-- A sweep that is decided on is recorded. -/
theorem swept_of_applyFacts {ctx : OcCtx P} {startedAt : ℤ} {orderId : OrderId} {row : OcRow}
    {facts : Facts} {db db' : OcDb} {txid : String} (hrow : getOc orderId db = some row)
    (hcan : canOnchainTransition row.order.state .swept = true)
    (hdecide : decideOnchainAction row.order (ctx.watchContext row facts db) =
      .observeSpend txid (some .timelock))
    (h : ctx.applyFacts startedAt orderId row.version facts db = .ok db') :
    ∃ r', getOc orderId db' = some r' ∧ r'.order.state = .swept ∧
      r'.order.settlementTxid = some txid := by
  have hfilter : (getOc orderId db).filter (fun r => r.version = row.version) = some row := by
    rw [hrow, Option.filter_some, if_pos (decide_eq_true rfl)]
  have hlive : ¬ isOnchainTerminal row.order.state = true := by
    intro hterminal
    cases hs : row.order.state <;> rw [hs] at hcan hterminal <;> revert hcan hterminal <;> decide
  have hid : row.order.orderId = orderId := orderId_of_getOc hrow
  unfold OcCtx.applyFacts at h
  rw [hfilter] at h
  dsimp only at h
  rw [if_neg hlive, hdecide, if_pos (.inr Bool.false_ne_true)] at h
  obtain ⟨db₁, hexecute, hafter⟩ := Except.bind_eq_ok_iff.mp h
  obtain ⟨⟨swept, db₂⟩, hup, hdb₁⟩ := Except.bind_eq_ok_iff.mp hexecute
  obtain rfl := Except.ok.inj hdb₁
  obtain ⟨row', -, -, rfl⟩ := updateOc_ok hup
  -- what is done after the transition leaves the order alone
  have hquiet := (quiet_applyOutcome swept .swept _).trans (OcCtx.quiet_afterAction hafter)
  have hset : getOc orderId (setOc ctx.now row.order.orderId (fun o => { o with
      state := .swept, settlementTxid := some txid }) id db) =
        some (row.stamp (fun o => { o with state := .swept, settlementTxid := some txid }) id
          ctx.now) := by
    rw [getOc_setOc, if_pos hid.symm, hrow, Option.map_some]
  obtain ⟨r', hr', hcore⟩ := getOc_of_core ((hquiet.cores orderId).trans (coreOf_eq_some hset))
  have ho : r'.core.order = (row.stamp (fun o => { o with
      state := .swept, settlementTxid := some txid }) id ctx.now).core.order :=
    congrArg OcRow.order hcore
  have hs : r'.order.state = .swept := congrArg OnchainOrder.state ho
  have htxid : r'.order.settlementTxid = some txid := congrArg OnchainOrder.settlementTxid ho
  exact ⟨r', hr', hs, htxid⟩

/-- A sweep that is not known to be deep enough ends the order all the same. -/
theorem not_endsConfirmed (hw : (ocSystem env).Reachable w) (h : SweptUnconfirmed env w i) :
    ¬ EndsConfirmed env chain w i := by
  obtain ⟨answers, price, p, rest, facts, txid, confirmed, rfl, hpoll, hversion, hcan, hfacts,
    hpinned, hsettling, hshallow⟩ := h
  obtain ⟨row, hget, hv⟩ := Option.map_eq_some_iff.mp hversion
  obtain ⟨r₁, hr₁, -, hsame⟩ := snapshot_of_reachable hw p (by rw [hpoll]; simp)
  obtain rfl := Option.some.inj (hget.symm.trans hr₁)
  have ho : p.order = row.order := hsame hv.symm
  have hgather := (gather_ok hfacts).2 _ hpinned
  obtain ⟨witness, -, hspent, -, -⟩ := spent_of_gather hgather
  have hnever : ¬ ReleasedEarly env.lib w p answers := by
    rintro ⟨-, -, facts', txid', confirmed', hfacts', hpinned'⟩
    obtain rfl := Except.ok.inj (hfacts.symm.trans hfacts')
    obtain ⟨-, hleaf, -⟩ := PinnedFacts.spent.inj (Option.some.inj (hpinned.symm.trans hpinned'))
    exact absurd hleaf (by decide)
  obtain ⟨db', happly⟩ := @applyFacts_ok P env w p rest answers price facts hw hpoll hfacts hnever
  have hctx : (w.checked p).ctx env price = w.ctx env price := by
    rw [OcWorld.ctx, OcWorld.ctx, checked_now]
  have hlive : isOnchainTerminal p.order.state = false := by
    cases hs : p.order.state <;> rw [hs] at hcan <;> revert hcan <;> decide
  have hdue : w.due p = true := by
    rw [OcWorld.due, if_pos (by rw [hlive]; exact Bool.false_ne_true)]
  have hstep : w.step env (.judge answers price) = some (w.judge env p rest answers price) := by
    rw [OcWorld.step, hpoll]
  have hdb : (w.judge env p rest answers price).db = db' := by
    rw [OcWorld.judge, if_neg (by rw [hdue]; exact fun h => h rfl)]
    simp only [hfacts, hctx, checked_db, checked_startedAt, happly]
  have hdecide : decideOnchainAction row.order ((w.ctx env price).watchContext row facts w.db) =
      .observeSpend txid (some .timelock) :=
    decide_sweep (ho ▸ hcan) (ho ▸ outpoint_of_gather hfacts hpinned) hpinned (ho ▸ hsettling)
  obtain ⟨r', hr', hswept, htxid⟩ := swept_of_applyFacts hget (ho ▸ hcan) hdecide (hv ▸ happly)
  intro hends
  have hchanged : r'.order.state ≠ row.order.state := by
    intro heq
    rw [ho, ← heq, hswept] at hcan
    exact absurd hcan (by decide)
  obtain ⟨answers', price', txid', name, hi, htxid', -, hshows⟩ := hends _ hstep p.order.orderId row r'
    hget (by rw [hdb]; exact hr') hchanged (by rw [hswept]; rfl)
  obtain ⟨rfl, -⟩ := OcInput.judge.inj hi
  obtain rfl := Option.some.inj (htxid.symm.trans htxid')
  cases hshows with
  | status status hs hsettled hstatus hconfirmed hn =>
    obtain ⟨t, ht, hne⟩ := hsettling (by rw [ho]; exact hs)
    rw [ho, hsettled] at ht
    exact hne (Option.some.inj (Option.filter_eq_some_iff.mp ht).1)
  | spend witness' hspend hn =>
    obtain ⟨-, rfl, -⟩ := SpendInfo.spent.inj (Query.known.inj (hspent.symm.trans hspend))
    have hrequired := hshallow rfl
    rw [ho] at hrequired
    omega

end Step

/-! ## In every run -/

/-- **What the ends of an order rest on.**  In every run in which the explorer tells the truth about
spends, every end rests on a transaction that is shown to spend the pinned outpoint with the
confirmations that the amount requires, if and only if no step sees a sweep, not on record, that is
not known to have them. -/
theorem ends_confirmed_iff (env : OcEnv P) (chain : Outpoint → String → List String → Prop) (now : ℤ)
    (is : List OcInput) (htrue : (ocSystem env).Along (SpendsTruthful chain) (OcWorld.init now) is) :
    (ocSystem env).Along (EndsConfirmed env chain) (OcWorld.init now) is ↔
      (ocSystem env).Along (fun w i => ¬ SweptUnconfirmed env w i) (OcWorld.init now) is := by
  refine TransitionSystem.along_congr ?_ (.init ⟨now, rfl⟩) htrue
  intro w i hw hi
  constructor
  · intro hends hswept
    exact not_endsConfirmed hw.reachable hswept hends
  · exact endsConfirmed_of_not hw hi

/-! ## A sweep in the mempool -/

/-- The witness of a sweep: the signature left out, the script of the timelock leaf, the control
block. -/
def sweepWitness : List String :=
  ["00", "02801fb27520774ae7f858a9411e5ef4246b70c65aac5649980be5c17891bbec17895da008cbac", "c0"]

/-- The funding is spent through the timelock leaf by a transaction that has no confirmation. -/
def sweepAnswers : ChainAnswers :=
  { tradeAnswers with
    utxos := .known []
    outspend := .known (.spent refundTxid false (some sweepWitness)) }

/-- The trade is funded, and the next poll sees the sweep. -/
def sweepInputs : List OcInput := tradeInputs ++ [.poll, .judge sweepAnswers none]

/-- The funding is spent through the timelock leaf by a transaction in a block. -/
def sweptAnswers : ChainAnswers :=
  { sweepAnswers with outspend := .known (.spent refundTxid true (some sweepWitness)) }

/-- The trade is funded, and the next poll sees the sweep in a block. -/
def sweptInputs : List OcInput := (tradeInputs ++ [.poll]) ++ [.judge sweptAnswers none]

/-- The explorer tells the truth about the sweep and about nothing else. -/
def sweepChain (_ : Outpoint) (txid : String) (witness : List String) : Prop :=
  txid = refundTxid ∧ witness = sweepWitness

/-- The answers of the inputs are true, in whatever state they come. -/
theorem spendsTruthful_sweep (is : List OcInput) (w : OcWorld)
    (h : ∀ i ∈ is, ∀ answers price, i = .judge answers price →
      answers = tradeAnswers ∨ answers = sweepAnswers ∨ answers = sweptAnswers) :
    (ocSystem tradeEnv).Along (SpendsTruthful sweepChain) w is := by
  induction is generalizing w with
  | nil => trivial
  | cons i is ih =>
    refine ⟨?_, fun w' _ => ih w' fun j hj => h j (List.mem_cons_of_mem i hj)⟩
    intro answers price p rest pinned txid confirmed witness hjudge _ _ hspent
    obtain rfl | rfl | rfl := h i List.mem_cons_self answers price hjudge
    · cases hspent
    · obtain ⟨rfl, -, hwitness⟩ := SpendInfo.spent.inj (Query.known.inj hspent)
      exact ⟨rfl, (Option.some.inj hwitness).symm⟩
    · obtain ⟨rfl, -, hwitness⟩ := SpendInfo.spent.inj (Query.known.inj hspent)
      exact ⟨rfl, (Option.some.inj hwitness).symm⟩

theorem sweepInputs_answers : ∀ i ∈ sweepInputs, ∀ answers price, i = .judge answers price →
    answers = tradeAnswers ∨ answers = sweepAnswers ∨ answers = sweptAnswers := by
  simp [sweepInputs, tradeInputs]

theorem sweptInputs_answers : ∀ i ∈ sweptInputs, ∀ answers price, i = .judge answers price →
    answers = tradeAnswers ∨ answers = sweepAnswers ∨ answers = sweptAnswers := by
  simp [sweptInputs, tradeInputs]

/-- The step that sees the sweep ends the order on a transaction without a confirmation. -/
theorem sweep_ends_unconfirmed :
    (ocSystem tradeEnv).Along (SpendsTruthful sweepChain) (OcWorld.init 0) sweepInputs ∧
      ¬ (ocSystem tradeEnv).Along (EndsConfirmed tradeEnv sweepChain) (OcWorld.init 0)
        sweepInputs := by
  refine ⟨spendsTruthful_sweep _ _ sweepInputs_answers, fun hends => ?_⟩
  have hrun : (((ocSystem tradeEnv).run (OcWorld.init 0) (tradeInputs ++ [.poll])).bind fun w =>
      w.polling.head?.map fun p => decide ((getOc p.order.orderId w.db).map OcRow.version =
        some p.version ∧ p.order.state = .funded ∧
          (gather tradeEnv.lib p.order sweepAnswers).toOption.map Facts.pinned =
            some (some (.spent refundTxid (some .timelock) false)))) = some true := by
    decide +kernel
  obtain ⟨w, hw, hrow⟩ := Option.bind_eq_some_iff.mp hrun
  obtain ⟨p, hp, hrow⟩ := Option.map_eq_some_iff.mp hrow
  obtain ⟨rest, hpoll⟩ := List.head?_eq_some_iff.mp hp
  obtain ⟨hversion, hs, hgather⟩ := of_decide_eq_true hrow
  obtain ⟨facts, hfacts, hpinned⟩ := Option.map_eq_some_iff.mp hgather
  have hstep : EndsConfirmed tradeEnv sweepChain w (.judge sweepAnswers none) := by
    have hsplit : sweepInputs = (tradeInputs ++ [.poll]) ++ [.judge sweepAnswers none] := by
      rw [sweepInputs, List.append_assoc]
      rfl
    rw [hsplit] at hends
    exact (hends.drop hw).1
  refine not_endsConfirmed (reachable_of_run hw) ?_ hstep
  refine ⟨sweepAnswers, none, p, rest, facts, refundTxid, false, rfl, hpoll, hversion, ?_,
    ok_of_toOption hfacts, hpinned, ?_, ?_⟩
  · rw [hs]
    decide
  · rw [hs]
    exact fun h => by cases h
  · exact fun h => by cases h

/-- The last step of it, as it ends the order. -/
theorem swept_run : ∃ w w' p, (ocSystem tradeEnv).run (OcWorld.init 0) (tradeInputs ++ [.poll]) = some w ∧
    w.polling = [p] ∧ p.order.amountSat = 50000 ∧ w.step tradeEnv (.judge sweptAnswers none) = some w' ∧
    (∃ r, getOc "trade-1" w.db = some r ∧ r.order.state = .funded ∧ r.order.amountSat = 50000) ∧
    ∃ r', getOc "trade-1" w'.db = some r' ∧ r'.order.state = .swept := by
  have hrun : (((ocSystem tradeEnv).run (OcWorld.init 0) (tradeInputs ++ [.poll])).any fun w =>
      decide (w.polling.length = 1) && (w.polling.all fun p => p.order.amountSat = 50000) &&
      ((getOc "trade-1" w.db).any fun r => r.order.state = .funded ∧ r.order.amountSat = 50000) &&
      (w.step tradeEnv (.judge sweptAnswers none)).any fun w' =>
        (getOc "trade-1" w'.db).any fun r' => r'.order.state = .swept) = true := by
    decide +kernel
  simp only [Option.any_eq_true, Bool.and_eq_true, decide_eq_true_eq, List.all_eq_true] at hrun
  obtain ⟨w, hw, ⟨⟨⟨hlen, hall⟩, hfunded⟩, w', hs, hswept⟩⟩ := hrun
  obtain ⟨p, hp⟩ := List.length_eq_one_iff.mp hlen
  exact ⟨w, w', p, hw, hp, hall p (by rw [hp]; exact List.mem_cons_self), hs, hfunded, hswept⟩

/-- While no spend is seen, no sweep is. -/
theorem not_sweptUnconfirmed_of_quiet (is : List OcInput) (w : OcWorld)
    (h : ∀ i ∈ is, ∀ answers price, i = .judge answers price → answers = tradeAnswers) :
    (ocSystem tradeEnv).Along (fun w i => ¬ SweptUnconfirmed tradeEnv w i) w is := by
  induction is generalizing w with
  | nil => trivial
  | cons i is ih =>
    refine ⟨?_, fun w' _ => ih w' fun j hj => h j (List.mem_cons_of_mem i hj)⟩
    rintro ⟨answers, price, p, rest, facts, txid, confirmed, hi, -, -, -, hfacts, hpinned, -⟩
    obtain ⟨witness, -, hspent, -⟩ := spent_of_gather ((gather_ok hfacts).2 _ hpinned)
    rw [h i List.mem_cons_self answers price hi] at hspent
    cases hspent

/-- No step of it sees a sweep without its confirmation. -/
theorem not_sweptUnconfirmed : (ocSystem tradeEnv).Along
    (fun w i => ¬ SweptUnconfirmed tradeEnv w i) (OcWorld.init 0) sweptInputs := by
  refine TransitionSystem.Along.append (not_sweptUnconfirmed_of_quiet _ _ (by simp [tradeInputs]))
    fun w hw => ⟨?_, fun _ _ => trivial⟩
  rintro ⟨answers, price, p, rest, facts, txid, confirmed, hi, hpoll, -, -, hfacts, hpinned, -, hfew⟩
  obtain ⟨rfl, rfl⟩ := OcInput.judge.inj hi
  obtain ⟨witness, -, hspent, -⟩ := spent_of_gather ((gather_ok hfacts).2 _ hpinned)
  obtain ⟨-, rfl, -⟩ := SpendInfo.spent.inj (Query.known.inj hspent)
  -- it has one confirmation, and the amount asks for no more
  obtain ⟨w₁, -, q, hw₁, hq, hamount, -⟩ := swept_run
  obtain rfl := Option.some.inj (hw.symm.trans hw₁)
  obtain ⟨rfl, -⟩ := List.cons.inj (hpoll.symm.trans hq)
  have hone := hfew rfl
  rw [hamount] at hone
  exact absurd hone (by decide +kernel)

/-- A sweep in a block ends the order on a transaction that the answers show to be confirmed. -/
theorem ends_confirmed_iff_trade : ∃ w w' r r' answers txid name,
    (ocSystem tradeEnv).run (OcWorld.init 0) (tradeInputs ++ [.poll]) = some w ∧
    w.step tradeEnv (.judge sweptAnswers none) = some w' ∧
    getOc "trade-1" w.db = some r ∧ r.order.state = .funded ∧
    getOc "trade-1" w'.db = some r' ∧ r'.order.state = .swept ∧
    r'.order.settlementTxid = some txid ∧ SpendsPinned tradeEnv sweepChain r'.order name txid ∧
    ShowsConfirmations answers r.order txid 1 := by
  have htrue := spendsTruthful_sweep sweptInputs (OcWorld.init 0) sweptInputs_answers
  have hends := (ends_confirmed_iff tradeEnv sweepChain 0 sweptInputs htrue).mpr not_sweptUnconfirmed
  obtain ⟨w, w', p, hw, -, -, hs, ⟨r, hr, hfunded, hamount⟩, r', hr', hswept⟩ := swept_run
  obtain ⟨hlast, -⟩ := hends.drop hw
  have hmoved : r'.order.state ≠ r.order.state := by
    rw [hfunded, hswept]
    decide
  obtain ⟨answers, price, txid, name, -, htxid, hspends, hshows⟩ :=
    hlast w' hs "trade-1" r r' hr hr' hmoved (by rw [hswept]; rfl)
  rw [hamount] at hshows
  exact ⟨w, w', r, r', answers, txid, name, hw, hs, hr, hfunded, hr', hswept, htxid, hspends, hshows⟩

end LnPay
