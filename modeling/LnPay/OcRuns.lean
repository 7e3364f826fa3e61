/-
# Runs of the on-chain daemon

What one step does to the rows, and what holds of them in every run: an order
that has been decided is past the states in which a trade goes on, an order that
has been claimed has an escrow address, and a row that is being asked about has
not changed as long as its version is the same.
-/
import LnPay.OcEdges

namespace LnPay

variable {P : Type}

/-! ## What a step does to a row -/

/-- What becomes of a row: notes are written, or it changes once. -/
inductive RowStep (c : OcCause) (r r' : OcRow) : Prop
  | noted (ho : r'.order = r.order) (hm : r'.ocMeta.record = r.ocMeta.record)
      (hv : r'.version = r.version)
  | changed (o' : OnchainOrder) (h : OcChange c r.order r.ocMeta.record o' r'.ocMeta.record)
      (hlegal : o'.state = r.order.state ∨ canOnchainTransition r.order.state o'.state = true)
      (ho : r'.order = r.order.restamp o' c.now) (hv : r'.version = r.version + 1)

/-- A row that has just been listed. -/
structure OcRow.Fresh (r : OcRow) : Prop where
  listed : r.order.state = .listed
  undecided : r.order.settlementKind = none
  unpinned : r.order.fundingOutpoint = none
  unsent : r.ocMeta.outbox = none
  untimed : r.order.accountSentAt = none ∧ r.order.krwDeadline = none
  blank : r.order.Blank

theorem RowNext.step {c : OcCause} {r r' : OcRow} (h : RowNext c (some r.core) (some r'.core)) :
    RowStep c r r' := by
  generalize ha : some r.core = a at h
  generalize hb : some r'.core = b at h
  cases h with
  | same x =>
    have hcore : r'.core = r.core := Option.some.inj (hb.trans ha.symm)
    have ho : r'.core.order = r.core.order := congrArg OcRow.order hcore
    have hv : r'.core.version = r.core.version := congrArg OcRow.version hcore
    exact .noted ho (congrArg OcRow.ocMeta hcore) hv
  | listed => exact absurd ha (by simp)
  | changed x o' m' hchange hlegal =>
    obtain rfl := Option.some.inj ha
    have hcore := Option.some.inj hb
    have hm : r'.ocMeta.record = m' := congrArg OcRow.ocMeta hcore
    have ho : r'.core.order = _ := congrArg OcRow.order hcore
    have hv : r'.core.version = _ := congrArg OcRow.version hcore
    exact .changed o' (hm ▸ hchange) hlegal ho hv

/-- No row is ever deleted. -/
theorem OcNext.row {c : OcCause} {db db' : OcDb} {id : OrderId} {r : OcRow} (h : OcNext c db db')
    (hr : getOc id db = some r) : ∃ r', getOc id db' = some r' ∧ RowStep c r r' := by
  have hnext := h.rows id
  rw [coreOf_eq_some hr] at hnext
  cases hcore : coreOf id db' with
  | none =>
    rw [hcore] at hnext
    cases hnext
  | some x =>
    obtain ⟨r', hr', rfl⟩ := getOc_of_core hcore
    rw [hcore] at hnext
    exact ⟨r', hr', hnext.step⟩

/-- A row comes from the row before, or has just been listed. -/
theorem OcNext.back {c : OcCause} {db db' : OcDb} {id : OrderId} {r' : OcRow} (h : OcNext c db db')
    (hr' : getOc id db' = some r') :
    (∃ r, getOc id db = some r ∧ RowStep c r r') ∨ r'.Fresh := by
  cases hr : getOc id db with
  | some r =>
    obtain ⟨r₁, hr₁, hstep⟩ := h.row hr
    obtain rfl := Option.some.inj (hr'.symm.trans hr₁)
    exact .inl ⟨r, rfl, hstep⟩
  | none =>
    have hnext := h.rows id
    rw [coreOf, hr, Option.map_none, coreOf_eq_some hr'] at hnext
    generalize hb : some r'.core = b at hnext
    generalize ha : (none : Option OcRow) = a at hnext
    cases hnext with
    | same => exact absurd (ha.trans hb.symm) (by simp)
    | listed x hs hk hf ho hv ha hblank =>
      obtain rfl := Option.some.inj hb
      exact .inr ⟨hs, hk, hf, ho, ha, hblank⟩
    | changed => exact absurd ha (by simp)

/-! ## What a step is for -/

/-- The watcher has decided on an action: the row it has asked about is up to date, and the action is
the one for the answers. -/
inductive Judged (env : OcEnv P) (w : OcWorld) : OcInput → OnchainOrder → OnchainAction → Prop
  | intro (answers : ChainAnswers) (price : Option ℚ) (row : OcRow) (rest : List OcRow)
      (facts : Facts) (r : OcRow) (hpoll : w.polling = row :: rest)
      (hfacts : gather env.lib row.order answers = .ok facts)
      (hr : getOc row.order.orderId w.db = some r) (hv : r.version = row.version) :
      Judged env w (.judge answers price) r.order
        (decideOnchainAction r.order ((w.ctx env price).watchContext r facts w.db))

/-- What the watcher has decided on is the decision for the order. -/
theorem Judged.decided {env : OcEnv P} {w : OcWorld} {i : OcInput} {o : OnchainOrder}
    {a : OnchainAction} (h : Judged env w i o a) : ∃ ctx, decideOnchainAction o ctx = a := by
  cases h with
  | intro => exact ⟨_, rfl⟩

/-- The cause of the changes of a step. -/
def OcWorld.cause (env : OcEnv P) (w : OcWorld) (i : OcInput) : OcCause where
  now := w.now
  acts := Judged env w i
  takes o turn := ∃ event price r, i = .request turn.action event price ∧
    (given (extractOrderId event.tags)).bind (getOc · w.db) = some r ∧ r.order = o ∧
    o.awaits event.pubkey turn ∧ isPast (o.turnDeadline turn) (min event.createdAt w.now) = false
  cosigns o kind := ∃ event price, i = .request .cosign event price ∧
    some event.pubkey = OcCtx.expectedSender o kind
  completes o m kind txid rawHex := ∃ event price, i = .request .cosign event price ∧
    Completes env event o m kind txid rawHex
  resolves o := ∃ accountBad version price,
    i = .command (.accountDispute accountBad) o.orderId version price
  builds := Buildable env
  claims p := (∃ event price, i = .request .claim event price ∧ p = event.pubkey) ∨
    ∃ inv, i = .hook .accepted inv ∧ p = inv.party
  asks id key := ∃ txid vout version price, i = .command (.rescue txid vout) id version price ∧
    key = formatOutpoint ⟨txid, vout⟩
  finalizes rawHex := (∃ event price, i = .request .cosign event price) ∧ OcCtx.Finalized env rawHex
  marks := ∃ id txid rescueKey, i = .broadcastDone id txid rescueKey

theorem cause_builds (env : OcEnv P) (w : OcWorld) (i : OcInput) (price : Option ℚ) :
    ∀ o m, Buildable (w.ctx env price).env o m → (w.cause env i).builds o m := fun _ _ hb => hb

/-- A transaction that throws changes nothing. -/
theorem next_transact {c : OcCause} {w : OcWorld} {r : Except Abort OcDb}
    (h : ∀ db', r = .ok db' → OcNext c w.db db') : OcNext c w.db (w.transact r).db := by
  cases r with
  | ok db' => exact h db' rfl
  | error e => exact (Quiet.refl _).next

theorem next_runHook {c : OcCause} {env : OcEnv P} {w : OcWorld} {call : HookCall} {inv : HoldRow}
    {db' : OcDb} (hc : c.now = w.now) (hclaim : call = .accepted → c.claims inv.party)
    (h : w.runHook env call inv = .ok db') :
    OcNext c w.db db' := by
  cases call with
  | created => exact (OcCtx.quiet_created h).next
  | accepted => exact OcCtx.next_accepted hc (hclaim rfl) h
  | createFailed | nodeCancelled =>
    obtain rfl := Except.ok.inj h
    exact (quiet_deleteCandidate _ _).next
  | disposed final via =>
    obtain rfl := Except.ok.inj h
    exact (quiet_deleteCandidate _ _).next

theorem checked_db (w : OcWorld) (row : OcRow) : (w.checked row).db = w.db := by
  unfold OcWorld.checked
  split <;> rfl

theorem checked_now (w : OcWorld) (row : OcRow) : (w.checked row).now = w.now := by
  unfold OcWorld.checked
  split <;> rfl

theorem checked_startedAt (w : OcWorld) (row : OcRow) :
    (w.checked row).startedAt = w.startedAt := by
  unfold OcWorld.checked
  split <;> rfl

/-- One row of a poll either leaves the ledger alone or applies what it has gathered. -/
theorem judge_cases (env : OcEnv P) (w : OcWorld) (row : OcRow) (rest : List OcRow)
    (answers : ChainAnswers) (price : Option ℚ) :
    (w.judge env row rest answers price).db = w.db ∨
      ∃ facts db', gather env.lib row.order answers = .ok facts ∧
        (w.ctx env price).applyFacts w.startedAt row.order.orderId row.version facts w.db =
          .ok db' ∧ (w.judge env row rest answers price).db = db' := by
  have hctx : (w.checked row).ctx env price = w.ctx env price := by
    rw [OcWorld.ctx, OcWorld.ctx, checked_now]
  unfold OcWorld.judge
  split
  · exact .inl rfl
  · dsimp only
    split
    · exact .inl (checked_db w row)
    · rename_i facts hfacts
      rw [hctx, checked_db, checked_startedAt]
      split
      · rename_i db' happly
        exact .inr ⟨facts, db', hfacts, happly, rfl⟩
      · exact .inl rfl

/-- The rows a poll has still to judge after one of them. -/
theorem judge_polling (env : OcEnv P) (w : OcWorld) (row : OcRow) (rest : List OcRow)
    (answers : ChainAnswers) (price : Option ℚ) :
    (w.judge env row rest answers price).polling = rest ∨
      (w.judge env row rest answers price).polling = [] := by
  unfold OcWorld.judge
  split
  · exact .inl rfl
  · dsimp only
    split
    · exact .inl rfl
    · split
      · exact .inl rfl
      · exact .inr rfl

/-- Every step of the daemon makes the changes of its cause. -/
theorem step_next {env : OcEnv P} {w w' : OcWorld} {i : OcInput} (h : w.step env i = some w') :
    OcNext (w.cause env i) w.db w'.db := by
  cases i with
  | tick seconds | refreshFees fees | setAccept b | restart =>
    obtain rfl := Option.some.inj h
    refine Quiet.next ?_
    exact Quiet.of_orders rfl fun _ _ _ hb => hb
  | holdSet hash patch =>
    obtain rfl := Option.some.inj h
    refine Quiet.next ?_
    exact Quiet.of_orders (by rw [setHold_track]) fun _ _ _ hb => hb
  | finish e =>
    obtain rfl := Option.some.inj h
    exact (Quiet.of_orders (by rw [Db.finish_track]) fun _ _ _ hb => Db.mem_of_mem_finish hb).next
  | broadcastDone orderId txid rescueKey =>
    obtain rfl := Option.some.inj h
    exact OcCtx.next_broadcastDone _ _ _ _ ⟨_, _, _, rfl⟩
  | poll =>
    simp only [OcWorld.step] at h
    split at h
    · obtain rfl := Option.some.inj h
      exact (Quiet.refl _).next
    · exact absurd h (by simp)
  | request action event price =>
    obtain rfl := Option.some.inj h
    refine next_transact fun db' hrun => ?_
    obtain ⟨⟨answer, db₁⟩, hhandle, rfl⟩ := Except.map_eq_ok_iff.mp hrun
    refine OcCtx.next_handleOc rfl (fun haction => ?_) (fun row kind _ haction hsender => ?_)
      (fun o m kind txid rawHex haction hcompletes => ?_) (fun rawHex haction hfinal => ?_)
      (fun row turn hrow haction hawaits hpast => ?_) hhandle
    · subst haction
      exact .inl ⟨event, price, rfl, rfl⟩
    · subst haction
      exact ⟨event, price, rfl, hsender⟩
    · subst haction
      exact ⟨event, price, rfl, hcompletes⟩
    · subst haction
      exact ⟨⟨event, price, rfl⟩, hfinal⟩
    · subst haction
      exact ⟨event, price, row, rfl, hrow, rfl, hawaits, hpast⟩
  | command cmd orderId version price =>
    obtain rfl := Option.some.inj h
    refine next_transact fun db' hrun => ?_
    obtain ⟨⟨error, db₁⟩, hcommand, rfl⟩ := Except.map_eq_ok_iff.mp hrun
    refine OcCtx.next_ocCommand rfl (cause_builds env w _ price) (fun accountBad r hcmd hr => ?_)
      (fun txid vout hcmd => ?_) hcommand
    · subst hcmd
      exact ⟨accountBad, version, price, by rw [orderId_of_getOc hr]⟩
    · subst hcmd
      exact ⟨txid, vout, version, price, rfl, rfl⟩
  | hook call inv =>
    obtain rfl := Option.some.inj h
    exact next_transact fun db' hrun => next_runHook rfl (fun hcall => by
      subst hcall
      exact .inr ⟨inv, rfl, rfl⟩) hrun
  | judge answers price =>
    simp only [OcWorld.step] at h
    split at h
    · exact absurd h (by simp)
    · rename_i row rest hpoll
      obtain rfl := Option.some.inj h
      obtain hsame | ⟨facts, db', hfacts, happly, hdb⟩ :=
        judge_cases env w row rest answers price
      · rw [hsame]
        exact (Quiet.refl _).next
      · rw [hdb]
        exact OcCtx.next_applyFacts rfl (cause_builds env w _ price)
          (fun r hr hv => .intro answers price row rest facts r hpoll hfacts hr hv) happly

/-! ## Invariants of the rows -/

/-- **The induction over a run, for the rows**, where every step of the run meets `ok`. -/
theorem rows_invariant_by {env : OcEnv P} {ok : OcWorld → OcInput → Prop} {Q : OcRow → Prop}
    (hfresh : ∀ r : OcRow, r.Fresh → Q r)
    (hstep : ∀ (w : OcWorld) (i : OcInput) (r r' : OcRow), ok w i → RowStep (w.cause env i) r r' →
      Q r → Q r')
    {w : OcWorld} (hw : (ocSystem env).ReachableBy ok w) {id : OrderId} {r : OcRow}
    (hr : getOc id w.db = some r) : Q r := by
  suffices hall : ∀ id r, getOc id w.db = some r → Q r from hall id r hr
  refine TransitionSystem.invariant_by (M := ocSystem env)
    (P := fun w => ∀ id r, getOc id w.db = some r → Q r) ?_ ?_ hw
  · rintro _ ⟨now, rfl⟩ id r hr
    exact absurd hr (by simp [OcWorld.init, OcWorld.emptyDb, getOc])
  · intro w i w' _ ih hok h id r' hr'
    obtain ⟨r, hr, hrow⟩ | hfr := (step_next h).back hr'
    · exact hstep w i r r' hok hrow (ih id r hr)
    · exact hfresh r' hfr

/-- The same over all runs. -/
theorem rows_invariant {env : OcEnv P} {Q : OcRow → Prop} (hfresh : ∀ r : OcRow, r.Fresh → Q r)
    (hstep : ∀ (w : OcWorld) (i : OcInput) (r r' : OcRow), RowStep (w.cause env i) r r' → Q r → Q r')
    {w : OcWorld} (hw : (ocSystem env).Reachable w) {id : OrderId} {r : OcRow}
    (hr : getOc id w.db = some r) : Q r :=
  rows_invariant_by hfresh (fun w i r r' _ => hstep w i r r') hw hr

/-! ## The rows that are being asked about -/

/-- A row of the poll that is going on: unless the order has changed since, it is as it was read. -/
def OcWorld.Snapshot (w : OcWorld) (p : OcRow) : Prop :=
  ∃ r, getOc p.order.orderId w.db = some r ∧ p.version ≤ r.version ∧
    (p.version = r.version → p.order = r.order)

/-- A poll reads all rows; nothing else adds to it. -/
theorem step_polling {env : OcEnv P} {w w' : OcWorld} {i : OcInput}
    (h : w.step env i = some w') :
    (∀ p ∈ w'.polling, p ∈ w.polling) ∨ (w'.polling = allOc w.db ∧ w'.db = w.db) := by
  have htransact : ∀ r : Except Abort OcDb, (w.transact r).polling = w.polling := by
    intro r
    cases r <;> rfl
  cases i with
  | tick _ | refreshFees _ | setAccept _ | holdSet _ _ | finish _ | broadcastDone _ _ _ =>
    obtain rfl := Option.some.inj h
    exact .inl fun p hp => hp
  | restart =>
    obtain rfl := Option.some.inj h
    exact .inl fun p hp => by cases hp
  | request _ _ _ | command _ _ _ _ | hook _ _ =>
    obtain rfl := Option.some.inj h
    exact .inl fun p hp => htransact _ ▸ hp
  | poll =>
    simp only [OcWorld.step] at h
    split at h
    · obtain rfl := Option.some.inj h
      exact .inr ⟨rfl, rfl⟩
    · exact absurd h (by simp)
  | judge answers price =>
    simp only [OcWorld.step] at h
    split at h
    · exact absurd h (by simp)
    · rename_i row rest hpoll
      obtain rfl := Option.some.inj h
      left
      intro p hp
      rw [hpoll]
      obtain hrest | hnil := judge_polling env w row rest answers price
      · exact List.mem_cons_of_mem _ (hrest ▸ hp)
      · rw [hnil] at hp
        cases hp

/-- In every run, a row that is being asked about is as it was read, or its version is older. -/
theorem snapshot_of_reachable {env : OcEnv P} {w : OcWorld} (hw : (ocSystem env).Reachable w) :
    ∀ p ∈ w.polling, w.Snapshot p := by
  refine TransitionSystem.invariant (M := ocSystem env) (P := fun w => ∀ p ∈ w.polling, w.Snapshot p)
    ?_ ?_ hw
  · rintro _ ⟨now, rfl⟩ p hp
    cases hp
  · intro w i w' _ ih h p hp
    obtain hmem | ⟨hpoll, hdb⟩ := step_polling h
    · obtain ⟨r, hr, hle, hsame⟩ := ih p (hmem p hp)
      obtain ⟨r', hr', hrow⟩ := (step_next h).row hr
      refine ⟨r', hr', ?_⟩
      cases hrow with
      | noted ho hm hv => exact ⟨hv ▸ hle, fun heq => (hsame (hv ▸ heq)).trans ho.symm⟩
      | changed o' hchange hlegal ho hv => exact ⟨by omega, fun heq => by omega⟩
    · rw [hpoll] at hp
      have hfind : getOc p.order.orderId w.db = some p := KeyedTable.find_key_of_mem hp
      exact ⟨p, by rw [hdb]; exact hfind, le_refl _, fun _ => rfl⟩

/-- The row that is judged is the one that was asked about. -/
theorem Judged.asked {env : OcEnv P} {w : OcWorld} {i : OcInput} {o : OnchainOrder}
    {a : OnchainAction} (hw : (ocSystem env).Reachable w) (h : Judged env w i o a) :
    ∃ answers price row rest facts r, i = .judge answers price ∧ w.polling = row :: rest ∧
      row.order = o ∧ row.version = r.version ∧ getOc o.orderId w.db = some r ∧ r.order = o ∧
      gather env.lib o answers = .ok facts ∧
      a = decideOnchainAction o ((w.ctx env price).watchContext r facts w.db) := by
  cases h with
  | intro answers price row rest facts r hpoll hfacts hr hv =>
    obtain ⟨r₁, hr₁, -, hsame⟩ := snapshot_of_reachable hw row (by rw [hpoll]; simp)
    obtain rfl := Option.some.inj (hr.symm.trans hr₁)
    have ho := hsame hv.symm
    exact ⟨answers, price, row, rest, facts, r, rfl, hpoll, ho, hv.symm, by rw [← ho]; exact hr, rfl,
      by rw [← ho]; exact hfacts, rfl⟩

end LnPay
