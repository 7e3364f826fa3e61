/-
# When a poll goes on

One row of a poll is judged in one transaction, and a transaction that throws ends
the poll.  The watcher asks for legal transitions only, and what has been decided
on can always be built again, but for one case: a funded order whose outpoint is
spent through the release leaf, which the two parties can do between themselves as
soon as the funding is there.  `funded` does not lead to `settling`.
-/
import LnPay.OcFreshness

namespace LnPay

variable {P : Type}

/-! ## What has been decided on can be built -/

theorem buildable_of_none {env : OcEnv P} {o : OnchainOrder} {m : OcMeta}
    (hk : o.settlementKind = none) : Buildable env o m := by
  intro kind hkind
  rw [hk] at hkind
  cases hkind

/-- Nothing that a settlement is built from has changed. -/
theorem Buildable.congr {env : OcEnv P} {o o' : OnchainOrder} {m m' : OcMeta}
    (h : Buildable env o m) (hk : o'.settlementKind = o.settlementKind)
    (hf : o'.settlementFeeSat = o.settlementFeeSat)
    (hsame : ∀ kind f, settlementParamsFor env o' m' kind f = settlementParamsFor env o m kind f) :
    Buildable env o' m' := by
  intro kind hkind hne params hparams
  rw [hsame, hf] at hparams
  exact h kind (hk ▸ hkind) hne params hparams

theorem OcChange.buildable {env : OcEnv P} {c : OcCause} {o o' : OnchainOrder} {m m' : OcMeta}
    (h : OcChange c o m o' m') (hc : ∀ o m, c.builds o m → Buildable env o m)
    (hlegal : o'.state = o.state ∨ canOnchainTransition o.state o'.state = true)
    (hd : o.settlementKind ≠ none → o.state.trading = false) (hb : Buildable env o m) :
    Buildable env o' m' := by
  have hopen : o'.state.trading = true → o.settlementKind = none := by
    intro htrading
    by_contra hk
    have hsource := trading_source hlegal htrading
    rw [hd hk] at hsource
    exact absurd hsource (by simp)
  cases h with
  | bond => exact buildable_of_none (hopen rfl)
  | fund => exact buildable_of_none (hopen rfl)
  | reorg => exact buildable_of_none (hopen rfl)
  | decide kind feeSat fold o₁ hmay ho hbuild => exact hc _ _ hbuild
  | presig psbt hfunded hk => exact buildable_of_none hk
  | account commitment hpresigned hk ha => exact buildable_of_none hk
  | remit hpresigned hk => exact buildable_of_none hk
  | objection hpresigned hk => exact buildable_of_none hk
  | dispute | cancel | sweep | confirmed => exact hb.congr rfl rfl fun _ _ => rfl
  | cosign kind txid rawHex hkind hcan hcos ht =>
    obtain rfl | hsame := hkind
    · intro kind' hkind' hne
      exact absurd (Option.some.inj hkind').symm hne
    · exact hb.congr hsame.symm rfl fun _ _ => rfl
  | adopt txid leaf kind settlingAt hadopted hact =>
    unfold OcCtx.adoptedKind at hadopted
    split at hadopted
    · obtain rfl := Option.some.inj hadopted
      intro kind' hkind' hne
      exact absurd (Option.some.inj hkind').symm hne
    · exact hb.congr (Option.filter_eq_some_iff.mp hadopted).1.symm rfl fun _ _ => rfl
  | resolve kind hk hkind hstate hres =>
    intro kind' hkind' hne params hparams
    refine hb .refundAccountDisputed hk (by simp) params ?_
    obtain rfl := Option.some.inj hkind'
    obtain rfl | rfl := hkind
    · exact hparams
    · exact hparams

theorem RowStep.buildable {env : OcEnv P} {w : OcWorld} {i : OcInput} {r r' : OcRow}
    (h : RowStep (w.cause env i) r r') (hr : r.Shut) (hb : Buildable env r.order r.ocMeta) :
    Buildable env r'.order r'.ocMeta := by
  have hb' : Buildable env r.order r.ocMeta.record := hb
  cases h with
  | noted ho hm hv =>
    have hrecord : Buildable env r'.order r'.ocMeta.record := by
      rw [ho, hm]
      exact hb'
    exact hrecord
  | changed o' hchange hlegal ho hv =>
    have hnew : Buildable env o' r'.ocMeta.record :=
      hchange.buildable (fun _ _ h => h) hlegal hr.decided hb'
    rw [ho]
    exact hnew

/-- What is decided is past the trade and can be built. -/
def OcRow.Standing (env : OcEnv P) (r : OcRow) : Prop := r.Shut ∧ Buildable env r.order r.ocMeta

theorem OcRow.Fresh.standing {env : OcEnv P} {r : OcRow} (h : r.Fresh) : r.Standing env :=
  ⟨⟨fun hk => absurd h.undecided hk, fun ho => absurd h.unsent ho⟩, buildable_of_none h.undecided⟩

theorem RowStep.standing {env : OcEnv P} {w : OcWorld} {i : OcInput} {r r' : OcRow}
    (h : RowStep (w.cause env i) r r') (hr : r.Standing env) : r'.Standing env :=
  ⟨h.shut hr.1, h.buildable hr.1 hr.2⟩

/-- Every row of the ledger stands. -/
def Standing (env : OcEnv P) (db : OcDb) : Prop := ∀ id r, getOc id db = some r → r.Standing env

theorem OcNext.standing {env : OcEnv P} {w : OcWorld} {i : OcInput} {db db' : OcDb}
    (h : OcNext (w.cause env i) db db') (hdb : Standing env db) : Standing env db' := by
  intro id r' hr'
  obtain ⟨r, hr, hstep⟩ | hfresh := h.back hr'
  · exact hstep.standing (hdb id r hr)
  · exact hfresh.standing

theorem standing_of_reachable {env : OcEnv P} {w : OcWorld} (hw : (ocSystem env).Reachable w) :
    Standing env w.db := by
  intro id r hr
  apply rows_invariant (Q := OcRow.Standing env) _ _ hw hr
  · intro r hfresh
    exact hfresh.standing
  · intro w i r r' hstep hr
    exact hstep.standing hr

/-- A signature can be asked for as long as the settlement can be built. -/
theorem requestSettlementSignature_ok {ctx : OcCtx P} {orderId : OrderId} {db : OcDb}
    (hb : ∀ r, getOc orderId db = some r → Buildable ctx.env r.order r.ocMeta) :
    ∃ sent db', ctx.requestSettlementSignature orderId db = .ok (sent, db') := by
  unfold OcCtx.requestSettlementSignature
  split
  · exact ⟨_, _, rfl⟩
  · rename_i row kind heq
    obtain ⟨r, hr, hkind⟩ := Option.bind_eq_some_iff.mp heq
    obtain ⟨kind', hk, hpair⟩ := Option.map_eq_some_iff.mp hkind
    obtain ⟨rfl, rfl⟩ := Prod.mk.inj hpair
    by_cases hrelease : kind' = .release
    · rw [if_pos hrelease]
      exact ⟨_, _, rfl⟩
    · rw [if_neg hrelease]
      dsimp only
      split
      · rename_i params recipient hparams _
        obtain ⟨tx, htx⟩ := hb r hr kind' hk hrelease params hparams
        rw [htx]
        exact ⟨_, _, rfl⟩
      · exact ⟨_, _, rfl⟩

theorem request_ok (ctx : OcCtx P) {orderId : OrderId} {db : OcDb}
    (hb : ∀ r, getOc orderId db = some r → Buildable ctx.env r.order r.ocMeta) :
    ∃ (error : Option String) (db' : OcDb), (do
      let (_, db) ← ctx.requestSettlementSignature orderId db
      return (none, db)) = (.ok (error, db') : Except Abort (Option String × OcDb)) := by
  obtain ⟨sent, db', h⟩ := requestSettlementSignature_ok hb
  exact ⟨none, db', by rw [h]; rfl⟩

/-! ## Legal transitions -/

/-- An update in the table is carried out. -/
theorem updateOc_legal {now : ℤ} {orderId : OrderId} {row : OcRow}
    {patch : OnchainOrder → OnchainOrder} {metaPatch : OcMeta → OcMeta} {db : OcDb}
    (hrow : getOc orderId db = some row)
    (hlegal : (patch row.order).state = row.order.state ∨
      canOnchainTransition row.order.state (patch row.order).state = true) :
    updateOc now orderId patch metaPatch db =
      .ok (row.order.restamp (patch row.order) now, setOc now orderId patch metaPatch db) := by
  unfold updateOc
  rw [hrow]
  dsimp only
  rw [if_neg]
  rintro ⟨hne, hillegal⟩
  exact hlegal.elim hne hillegal

theorem transition_ok {ctx : OcCtx P} {row : OcRow} {patch : OnchainOrder → OnchainOrder} {db : OcDb}
    (hrow : getOc row.order.orderId db = some row)
    (hlegal : (patch row.order).state = row.order.state ∨
      canOnchainTransition row.order.state (patch row.order).state = true) :
    ∃ x, ctx.transition row patch db = .ok x :=
  ⟨_, updateOc_legal hrow hlegal⟩

/-- A transition outside the table throws. -/
theorem transition_error {ctx : OcCtx P} {row : OcRow} {patch : OnchainOrder → OnchainOrder}
    {db : OcDb} (hrow : getOc row.order.orderId db = some row)
    (hne : (patch row.order).state ≠ row.order.state)
    (hillegal : canOnchainTransition row.order.state (patch row.order).state = false) :
    ctx.transition row patch db = .error (.illegalTransition row.order.orderId) := by
  unfold OcCtx.transition updateOc
  rw [hrow]
  dsimp only
  rw [if_pos ⟨hne, by simp [hillegal]⟩]

theorem map_ok {ε α β : Type} {x : Except ε α} {f : α → β} (h : ∃ a, x = .ok a) :
    ∃ b, x.map f = .ok b := by
  obtain ⟨a, rfl⟩ := h
  exact ⟨f a, rfl⟩

/-- What may be decided may also be entered. -/
theorem mayDecide_legal {kind : SettlementKind} {fold : Bool} {o : OnchainOrder}
    (h : OcCtx.mayDecide kind fold o = true) :
    (if OcCtx.isRuling kind then o.state else OnchainState.refunding) = o.state ∨
      canOnchainTransition o.state
        (if OcCtx.isRuling kind then o.state else OnchainState.refunding) = true := by
  obtain ⟨-, hstate⟩ := (Bool.and_eq_true _ _).mp h
  by_cases hr : OcCtx.isRuling kind = true
  · exact .inl (if_pos hr)
  · right
    rw [if_neg hr]
    revert hstate hr
    cases kind <;> cases fold <;> cases o.state <;> simp [OcCtx.isRuling, canOnchainTransition,
      onchainTransitions]

theorem getOc_applyOutcome (o : OnchainOrder) (outcome : OnchainOutcome) (id : OrderId) (db : OcDb) :
    getOc id (applyOutcome o outcome db) = getOc id db :=
  getOc_congr (by rw [applyOutcome, track_applyBond, track_applyBond]) id

/-- A decision never throws: it is guarded, and what it asks a signature for it has built. -/
theorem decideSettlement_ok {ctx : OcCtx P} {orderId : OrderId} {kind : SettlementKind}
    {fold : Option (Outpoint × ℕ)} {db : OcDb} :
    ∃ error db', ctx.decideSettlement orderId kind fold db = .ok (error, db') := by
  unfold OcCtx.decideSettlement
  split
  · exact ⟨_, _, rfl⟩
  · rename_i row hrow
    obtain ⟨hget, hmay⟩ := Option.filter_eq_some_iff.mp hrow
    dsimp only
    split
    · exact ⟨_, _, rfl⟩
    · split
      · exact ⟨_, _, rfl⟩
      · rename_i shape hshape
        split
        · exact ⟨_, _, rfl⟩
        · rename_i feeSat hfee
          simp only [OcCtx.settlementFee, Except.bind_eq_ok_iff] at hfee
          obtain ⟨fee, -, tx, hbuild, hpure⟩ := hfee
          obtain rfl := Except.ok.inj hpure
          have hne := OcCtx.mayDecide_release hmay
          have hlegal := mayDecide_legal hmay
          rw [updateOc_legal hget hlegal]
          refine request_ok ctx fun r hr => ?_
          rw [getOc_applyOutcome, getOc_setOc, if_pos rfl, hget] at hr
          obtain rfl := Option.some.inj hr
          cases fold with
          | none => exact OcCtx.buildable_of_fee hne hshape (fun _ => rfl) rfl rfl hbuild
          | some f => exact OcCtx.buildable_of_fee hne hshape (fun _ => rfl) rfl rfl hbuild

/-! ## Actions -/

/-- In a funded order only a release is taken for a settlement. -/
theorem adoptedKind_funded {row : OcRow} {leaf : Option EscrowLeafName} {kind : SettlementKind}
    (hshut : row.Shut) (hs : row.order.state = .funded)
    (h : OcCtx.adoptedKind row.order leaf = some kind) : leaf = some .release := by
  have hkind : row.order.settlementKind = none := by
    by_contra hk
    have htrading := hshut.decided hk
    rw [hs] at htrading
    exact absurd htrading (by decide)
  by_contra hleaf
  rw [OcCtx.adoptedKind, if_neg hleaf, hkind] at h
  cases h

/-- A spend that is observed is recorded, unless it is the release of a funded order. -/
theorem observeSpend_ok {ctx : OcCtx P} {row : OcRow} {db : OcDb} {txid : String}
    {leaf : Option EscrowLeafName} (hrow : getOc row.order.orderId db = some row)
    (hshut : row.Shut)
    (hpinned : row.order.state = .funded ∨ row.order.state = .presigned ∨
      row.order.state = .remitted ∨ row.order.state = .disputed ∨ row.order.state = .refunding ∨
      row.order.state = .settling)
    (h : ¬ (row.order.state = .funded ∧ leaf = some .release)) :
    ∃ db', ctx.observeSpend row txid leaf db = .ok db' := by
  unfold OcCtx.observeSpend
  split
  · have hswept : ∃ x, ctx.transition row
        (fun o => { o with state := .swept, settlementTxid := some txid }) db = .ok x := by
      apply transition_ok hrow
      right
      show canOnchainTransition row.order.state .swept = true
      obtain hs | hs | hs | hs | hs | hs := hpinned <;> rw [hs] <;> decide
    obtain ⟨⟨o, db₁⟩, hswept⟩ := hswept
    rw [hswept]
    exact ⟨_, rfl⟩
  · split
    · exact ⟨_, rfl⟩
    · rename_i kind hkind
      split
      · exact map_ok (transition_ok hrow (.inl rfl))
      · rename_i hne
        refine map_ok (transition_ok hrow (.inr ?_))
        show canOnchainTransition row.order.state .settling = true
        -- from `funded` there is no way to `settling`
        obtain hs | hs | hs | hs | hs | hs := hpinned
        · exact absurd ⟨hs, adoptedKind_funded hshut hs hkind⟩ h
        · rw [hs]; decide
        · rw [hs]; decide
        · rw [hs]; decide
        · rw [hs]; decide
        · exact absurd hs hne

/-- What the watcher decides on it can carry out, unless a funded order is spent through the release
leaf. -/
theorem execute_ok {ctx : OcCtx P} {row : OcRow} {db : OcDb} {wctx : OnchainWatchContext}
    (hrow : getOc row.order.orderId db = some row) (hshut : row.Shut)
    (h : ∀ txid, row.order.state = .funded →
      decideOnchainAction row.order wctx ≠ .observeSpend txid (some .release)) :
    ∃ db', ctx.execute row (decideOnchainAction row.order wctx) db = .ok db' := by
  generalize ha : decideOnchainAction row.order wctx = a at h
  unfold OcCtx.execute
  cases a with
  | idle | hold _ | anomaly _ | warn _ | disputeSoon => exact ⟨_, rfl⟩
  | fund outpoint confirmations priceKrw =>
    have hbonded := (fund_of_decide ha).1
    dsimp only
    split
    · exact ⟨_, rfl⟩
    · split
      · exact ⟨_, rfl⟩
      · refine map_ok (transition_ok hrow (.inr ?_))
        show canOnchainTransition row.order.state .funded = true
        rw [hbonded]
        decide
  | fold outpoint confirmations kind =>
    obtain ⟨error, db', hdecide⟩ := decideSettlement_ok
    exact map_ok ⟨_, hdecide⟩
  | settle kind =>
    obtain ⟨error, db', hdecide⟩ := decideSettlement_ok
    exact map_ok ⟨_, hdecide⟩
  | cancel =>
    have hcancelled : ∃ x, ctx.transition row (fun o => { o with state := .cancelled }) db =
        .ok x := by
      apply transition_ok hrow
      right
      show canOnchainTransition row.order.state .cancelled = true
      obtain hs | hs := early_of_cancel ha <;> rw [hs] <;> decide
    obtain ⟨⟨o, db₁⟩, hcancelled⟩ := hcancelled
    dsimp only
    rw [hcancelled]
    exact ⟨_, rfl⟩
  | reorg =>
    refine map_ok (transition_ok hrow (.inr ?_))
    show canOnchainTransition row.order.state .bonded = true
    obtain hs | hs := (reorg_of_decide ha).1 <;> rw [hs] <;> decide
  | dispute =>
    refine map_ok (transition_ok hrow (.inr ?_))
    show canOnchainTransition row.order.state .disputed = true
    rw [dispute_of_decide ha]
    decide
  | confirmed =>
    dsimp only
    split
    · exact ⟨_, rfl⟩
    · rename_i kind hkind
      have hdone : ∃ x, ctx.transition row (fun o => { o with state := kind.terminal }) db =
          .ok x := by
        apply transition_ok hrow
        right
        show canOnchainTransition row.order.state kind.terminal = true
        rw [confirmed_of_decide ha]
        cases kind <;> decide
      obtain ⟨⟨o, db₁⟩, hdone⟩ := hdone
      rw [hdone]
      exact ⟨_, rfl⟩
  | observeSpend txid leaf =>
    apply observeSpend_ok hrow hshut (pinned_of_observeSpend ha)
    rintro ⟨hs, rfl⟩
    exact h txid hs rfl
  | rebroadcast =>
    dsimp only
    split
    · exact ⟨_, rfl⟩
    · exact ⟨_, rfl⟩

/-- The release of a funded order asks for a transition that is not in the table. -/
theorem execute_stuck {ctx : OcCtx P} {row : OcRow} {db : OcDb} {txid : String}
    (hrow : getOc row.order.orderId db = some row) (hs : row.order.state = .funded) :
    ctx.execute row (.observeSpend txid (some .release)) db =
      .error (.illegalTransition row.order.orderId) := by
  show ctx.observeSpend row txid (some .release) db = _
  have hne : ¬ (some EscrowLeafName.release = some .timelock) := by decide
  have hsettling : row.order.state ≠ .settling := by rw [hs]; decide
  have hillegal : canOnchainTransition row.order.state .settling = false := by rw [hs]; decide
  unfold OcCtx.observeSpend
  rw [if_neg hne, OcCtx.adoptedKind, if_pos rfl]
  dsimp only
  rw [if_neg hsettling, transition_error hrow (fun h => hsettling h.symm) hillegal]
  rfl

/-- What is done whatever the state is never throws. -/
theorem afterAction_ok {env : OcEnv P} {w : OcWorld} {i : OcInput} {price : Option ℚ}
    {orderId : OrderId} {action : OnchainAction} {facts : Facts} {db : OcDb}
    (hdb : Standing env db) :
    ∃ db', (w.ctx env price).afterAction orderId action facts db = .ok db' := by
  have hresend : ∀ (row : OcRow) (db : OcDb), Standing env db →
      ∃ db', (w.ctx env price).maybeResendSignature row db = .ok db' := by
    intro row db hdb
    unfold OcCtx.maybeResendSignature
    split
    · exact ⟨_, rfl⟩
    · split
      · exact ⟨_, rfl⟩
      · obtain ⟨sent, db', hsign⟩ := @requestSettlementSignature_ok P (w.ctx env price)
          row.order.orderId db fun r hr => (hdb _ r hr).2
        exact map_ok ⟨_, hsign⟩
  unfold OcCtx.afterAction
  split
  · exact ⟨_, rfl⟩
  · rename_i fresh hfresh
    dsimp only
    apply hresend
    split
    · split
      · exact OcNext.standing (w := w) (i := i) (quiet_noteStrays _ _ _).next hdb
      · exact hdb
    · exact hdb

/-! ## One row of a poll -/

/-- The pinned outpoint of a funded order is known to be spent through the release leaf, and the order
is still as it was read. -/
def ReleasedEarly (lib : BtcSigner P) (w : OcWorld) (p : OcRow) (answers : ChainAnswers) : Prop :=
  p.order.state = .funded ∧ (getOc p.order.orderId w.db).map OcRow.version = some p.version ∧
    ∃ facts txid confirmed, gather lib p.order answers = .ok facts ∧
      facts.pinned = some (.spent txid (some .release) confirmed)

/-- The transaction for a row goes through, and the rest of the poll is judged after it. -/
def GoesOn (env : OcEnv P) (w : OcWorld) (p : OcRow) (rest : List OcRow) (answers : ChainAnswers)
    (price : Option ℚ) : Prop :=
  (∀ facts, gather env.lib p.order answers = .ok facts → ∃ db', (w.ctx env price).applyFacts
      w.startedAt p.order.orderId p.version facts w.db = .ok db') ∧
    (w.judge env p rest answers price).polling = rest

section Poll

variable {env : OcEnv P} {w : OcWorld} {p : OcRow} {rest : List OcRow} {answers : ChainAnswers}
  {price : Option ℚ}

/-- A spend of the pinned outpoint of a funded order is what is decided on. -/
theorem decide_funded {order : OnchainOrder} {ctx : OnchainWatchContext} {facts : Facts}
    {txid : String} {leaf : Option EscrowLeafName} {confirmed : Bool}
    (hs : order.state = .funded) (hfacts : gather env.lib order answers = .ok facts)
    (hpinned : facts.pinned = some (.spent txid leaf confirmed)) (hctx : ctx.pinned = facts.pinned) :
    decideOnchainAction order ctx = .observeSpend txid leaf := by
  have hgiven : (given order.fundingOutpoint).isNone = false := by
    have hgather := (gather_ok hfacts).2 _ hpinned
    cases hg : given order.fundingOutpoint with
    | some s => rfl
    | none =>
      rw [gather, hs, hg] at hfacts
      obtain rfl := Except.ok.inj hfacts
      cases hpinned
  unfold decideOnchainAction
  rw [hs]
  dsimp only
  rw [hgiven, if_neg (by simp), decidePinned, hctx, hpinned]
  rfl

theorem applyFacts_ok {facts : Facts} (hw : (ocSystem env).Reachable w)
    (hpoll : w.polling = p :: rest) (hfacts : gather env.lib p.order answers = .ok facts)
    (h : ¬ ReleasedEarly env.lib w p answers) :
    ∃ db', (w.ctx env price).applyFacts w.startedAt p.order.orderId p.version facts w.db =
      .ok db' := by
  unfold OcCtx.applyFacts
  split
  · exact ⟨_, rfl⟩
  · rename_i row hrow
    obtain ⟨hget, hversion⟩ := Option.filter_eq_some_iff.mp hrow
    have hversion : row.version = p.version := of_decide_eq_true hversion
    obtain ⟨r, hr, -, hsame⟩ := snapshot_of_reachable hw p (by rw [hpoll]; simp)
    obtain rfl := Option.some.inj (hget.symm.trans hr)
    have ho : p.order = row.order := hsame hversion.symm
    have hid := orderId_of_getOc hget
    have hstanding := standing_of_reachable hw
    split
    · split
      · exact ⟨_, rfl⟩
      · exact ⟨_, rfl⟩
    · dsimp only
      have hact : Judged env w (.judge answers price) row.order
          (decideOnchainAction row.order ((w.ctx env price).watchContext row facts w.db)) :=
        .intro answers price p rest facts row hpoll hfacts hget hversion
      have hexecute : ∃ db₁, (w.ctx env price).execute row (decideOnchainAction row.order
          ((w.ctx env price).watchContext row facts w.db)) w.db = .ok db₁ := by
        apply execute_ok (hid ▸ hget) (hstanding _ _ hget).1
        intro txid hs hdecide
        obtain ⟨confirmed, hpinned⟩ := observeSpend_of_decide hdecide
        refine h ⟨ho ▸ hs, ?_, facts, txid, confirmed, hfacts, hpinned⟩
        rw [hget, Option.map_some, hversion]
      obtain ⟨db₁, hexecute⟩ := hexecute
      split
      · rw [hexecute]
        have hnext : OcNext (w.cause env (.judge answers price)) w.db db₁ :=
          OcCtx.next_execute rfl (cause_builds env w _ price) (hid ▸ hget) hact hexecute
        exact afterAction_ok (i := .judge answers price) (hnext.standing hstanding)
      · exact afterAction_ok (i := .judge answers price) hstanding

theorem applyFacts_stuck (hw : (ocSystem env).Reachable w) (hpoll : w.polling = p :: rest)
    (h : ReleasedEarly env.lib w p answers) :
    ∃ facts, gather env.lib p.order answers = .ok facts ∧
      (w.ctx env price).applyFacts w.startedAt p.order.orderId p.version facts w.db =
        .error (.illegalTransition p.order.orderId) := by
  obtain ⟨hs, hversion, facts, txid, confirmed, hfacts, hpinned⟩ := h
  refine ⟨facts, hfacts, ?_⟩
  obtain ⟨row, hget, hversion⟩ := Option.map_eq_some_iff.mp hversion
  obtain ⟨r, hr, -, hsame⟩ := snapshot_of_reachable hw p (by rw [hpoll]; simp)
  obtain rfl := Option.some.inj (hget.symm.trans hr)
  have ho : p.order = row.order := hsame hversion.symm
  have hid := orderId_of_getOc hget
  rw [ho] at hs hfacts
  have hfilter : (getOc p.order.orderId w.db).filter (fun row => row.version = p.version) =
      some row := by
    rw [hget, Option.filter_some, if_pos (by simpa using hversion)]
  have hlive : ¬ isOnchainTerminal row.order.state = true := by
    rw [hs]
    decide
  have hdecide : decideOnchainAction row.order ((w.ctx env price).watchContext row facts w.db) =
      .observeSpend txid (some .release) := decide_funded hs hfacts hpinned rfl
  unfold OcCtx.applyFacts
  rw [hfilter]
  dsimp only
  rw [if_neg hlive, hdecide, if_pos (.inr Bool.false_ne_true), execute_stuck (hid ▸ hget) hs, hid]
  rfl

/-- The rest of the poll is judged when the transaction has gone through. -/
theorem polling_judge (h : ∀ facts, gather env.lib p.order answers = .ok facts → ∃ db',
      (w.ctx env price).applyFacts w.startedAt p.order.orderId p.version facts w.db = .ok db') :
    (w.judge env p rest answers price).polling = rest := by
  have hctx : (w.checked p).ctx env price = w.ctx env price := by
    rw [OcWorld.ctx, OcWorld.ctx, checked_now]
  unfold OcWorld.judge
  split
  · rfl
  · dsimp only
    split
    · rfl
    · rename_i facts hfacts
      obtain ⟨db', happly⟩ := h facts hfacts
      rw [hctx, checked_db, checked_startedAt, happly]

theorem goesOn_iff (hw : (ocSystem env).Reachable w) (hpoll : w.polling = p :: rest) :
    GoesOn env w p rest answers price ↔ ¬ ReleasedEarly env.lib w p answers := by
  constructor
  · rintro ⟨hok, -⟩ hreleased
    obtain ⟨facts, hfacts, herror⟩ := 
      @applyFacts_stuck P env w p rest answers price hw hpoll hreleased
    obtain ⟨db', happly⟩ := hok facts hfacts
    rw [happly] at herror
    cases herror
  · intro h
    have hok : ∀ facts, gather env.lib p.order answers = .ok facts → ∃ db', (w.ctx env price).applyFacts
        w.startedAt p.order.orderId p.version facts w.db = .ok db' :=
      fun facts hfacts => applyFacts_ok hw hpoll hfacts h
    exact ⟨hok, polling_judge hok⟩

end Poll

/-! ## A whole poll -/

/-- Inputs that neither begin a poll nor break it off. -/
def OcInput.withinPoll : OcInput → Bool
  | .poll | .restart => false
  | _ => true

example : OcInput.withinPoll .restart = false := by decide +kernel

/-- The judgement of one row. -/
def OcInput.isJudge : OcInput → Bool
  | .judge _ _ => true
  | _ => false

/-- In no state of the run is a funded order judged whose outpoint is spent through the release
leaf. -/
def NeverReleasedEarly (env : OcEnv P) : OcWorld → List OcInput → Prop
  | _, [] => True
  | w, i :: is =>
    (∀ answers price p rest, i = .judge answers price → w.polling = p :: rest →
      ¬ ReleasedEarly env.lib w p answers) ∧
    ∀ w', (ocSystem env).step w i = some w' → NeverReleasedEarly env w' is

/-- One input of a poll: a judgement takes one row off, and nothing else takes any. -/
theorem polling_step {env : OcEnv P} {w w' : OcWorld} {i : OcInput}
    (hw : (ocSystem env).Reachable w) (hi : i.withinPoll = true)
    (hnever : ∀ answers price p rest, i = .judge answers price → w.polling = p :: rest →
      ¬ ReleasedEarly env.lib w p answers)
    (h : (ocSystem env).step w i = some w') :
    w'.polling = w.polling.drop (if i.isJudge then 1 else 0) := by
  have htransact : ∀ r : Except Abort OcDb, (w.transact r).polling = w.polling := by
    intro r
    cases r <;> rfl
  cases i with
  | tick _ | refreshFees _ | setAccept _ | holdSet _ _ | finish _ | broadcastDone _ _ _ =>
    obtain rfl := Option.some.inj h
    rfl
  | request _ _ _ | command _ _ _ _ | hook _ _ =>
    obtain rfl := Option.some.inj h
    exact htransact _
  | poll | restart => exact absurd hi (by decide)
  | judge answers price =>
    cases hpoll : w.polling with
    | nil =>
      change OcWorld.step env w (.judge answers price) = some w' at h
      rw [OcWorld.step, hpoll] at h
      cases h
    | cons p rest =>
      obtain rfl := step_judge hpoll h
      exact ((goesOn_iff hw hpoll).mpr (hnever answers price p rest rfl hpoll)).2

theorem polling_run {env : OcEnv P} {is : List OcInput} :
    ∀ {w w' : OcWorld}, (ocSystem env).Reachable w → (∀ i ∈ is, i.withinPoll = true) →
      NeverReleasedEarly env w is → (ocSystem env).run w is = some w' →
      w'.polling = w.polling.drop (is.countP OcInput.isJudge) := by
  induction is with
  | nil =>
    intro w w' _ _ _ hrun
    obtain rfl := Option.some.inj hrun
    rfl
  | cons i is ih =>
    intro w w' hw hwithin hnever hrun
    obtain ⟨v, hstep, hrun⟩ := Option.bind_eq_some_iff.mp hrun
    have hone := polling_step hw (hwithin i List.mem_cons_self) hnever.1 hstep
    have hrest := ih (hw.next hstep) (fun j hj => hwithin j (List.mem_cons_of_mem i hj))
      (hnever.2 v hstep) hrun
    rw [hrest, hone, List.drop_drop, List.countP_cons, Nat.add_comm]

/-- **When a poll goes on.**  In every reachable state and on all answers, the transaction for a row
goes through and leaves the rest of the poll to be judged if and only if the row is not that of a
funded order known to be spent through the release leaf.  A run in which that is never judged takes
one row off for each judgement. -/
theorem poll_goes_on_iff (env : OcEnv P) :
    (∀ w p rest answers price, (ocSystem env).Reachable w → w.polling = p :: rest →
      (GoesOn env w p rest answers price ↔ ¬ ReleasedEarly env.lib w p answers)) ∧
    (∀ w is w', (ocSystem env).Reachable w → (∀ i ∈ is, i.withinPoll = true) →
      NeverReleasedEarly env w is → (ocSystem env).run w is = some w' →
      w'.polling = w.polling.drop (is.countP OcInput.isJudge)) := by
  constructor
  · intro w p rest answers price hw hpoll
    exact goesOn_iff hw hpoll
  · intro w is w' hw hwithin hnever hrun
    exact polling_run hw hwithin hnever hrun

/-! ## A release before its time -/

/-- Every poll goes on, whatever the explorer says. -/
def PollsGoOn (env : OcEnv P) : Prop :=
  ∀ w p rest answers price, (ocSystem env).Reachable w → w.polling = p :: rest →
    GoesOn env w p rest answers price

/-- The funding is spent through the release leaf. -/
def releasedAnswers : ChainAnswers :=
  { tradeAnswers with
    utxos := .known []
    outspend := .known (.spent
      "efefefefefefefefefefefefefefefefefefefefefefefefefefefefefefefef" true
      (some ["00",
        "20774ae7f858a9411e5ef4246b70c65aac5649980be5c17891bbec17895da008cb" ++
          "ad20421f5fc9a21065445c96fdb91c0c1e2f2431741c72713b4b99ddcb316f31e9fcac", "c0"])) }

/-- The trade has been funded, and a poll has begun. -/
theorem funded_run :
    ∃ w p rest, (ocSystem tradeEnv).Reachable w ∧ w.polling = p :: rest ∧
      p.order.state = .funded ∧
      (getOc p.order.orderId w.db).map OcRow.version = some p.version ∧
      (gather tradeEnv.lib p.order releasedAnswers).toOption.map Facts.pinned =
        some (some (.spent "efefefefefefefefefefefefefefefefefefefefefefefefefefefefefefefef"
          (some .release) true)) ∧
      (gather tradeEnv.lib p.order tradeAnswers).toOption.map Facts.pinned =
        some (some (.alive 1)) := by
  have hrun : (((ocSystem tradeEnv).run (OcWorld.init 0) (tradeInputs ++ [.poll])).bind fun w =>
      w.polling.head?.map fun p => decide (p.order.state = .funded ∧
        (getOc p.order.orderId w.db).map OcRow.version = some p.version ∧
        (gather tradeEnv.lib p.order releasedAnswers).toOption.map Facts.pinned =
          some (some (.spent "efefefefefefefefefefefefefefefefefefefefefefefefefefefefefefefef"
            (some .release) true)) ∧
        (gather tradeEnv.lib p.order tradeAnswers).toOption.map Facts.pinned =
          some (some (.alive 1)))) = some true := by
    decide +kernel
  obtain ⟨w, hw, hrun⟩ := Option.bind_eq_some_iff.mp hrun
  obtain ⟨p, hp, hrun⟩ := Option.map_eq_some_iff.mp hrun
  obtain ⟨rest, hpoll⟩ := List.head?_eq_some_iff.mp hp
  exact ⟨w, p, rest, reachable_of_run hw, hpoll, of_decide_eq_true hrun⟩

/-- A release that the two parties sign between themselves stops the poll. -/
theorem early_release_stops_poll : ¬ PollsGoOn tradeEnv := by
  intro hclaim
  obtain ⟨w, p, rest, hw, hpoll, hs, hversion, hreleased, -⟩ := funded_run
  refine (goesOn_iff hw hpoll).mp (hclaim w p rest releasedAnswers none hw hpoll) ⟨hs, hversion, ?_⟩
  obtain ⟨facts, hfacts, hpinned⟩ := Option.map_eq_some_iff.mp hreleased
  exact ⟨facts, _, true, ok_of_toOption hfacts, hpinned⟩

/-- As long as the funding is there, the poll goes on. -/
theorem poll_goes_on_iff_alive :
    ∃ w p rest, (ocSystem tradeEnv).Reachable w ∧ w.polling = p :: rest ∧
      GoesOn tradeEnv w p rest tradeAnswers none := by
  obtain ⟨w, p, rest, hw, hpoll, -, -, -, halive⟩ := funded_run
  refine ⟨w, p, rest, hw, hpoll, ?_⟩
  refine ((poll_goes_on_iff tradeEnv).1 w p rest tradeAnswers none hw hpoll).mpr ?_
  rintro ⟨-, -, facts, txid, confirmed, hfacts, hpinned⟩
  rw [hfacts] at halive
  have hsame : some (some (PinnedFacts.spent txid (some .release) confirmed)) =
      some (some (.alive 1)) := hpinned ▸ halive
  exact absurd hsame (by simp)

end LnPay
