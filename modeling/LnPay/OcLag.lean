/-
# An explorer that lags behind

The chain only ever grows, and every answer is true of some tip it has had; the
answers to the requests of one poll need not be of the same tip.  The tip height
and the list of outputs are asked for one after the other, and the confirmations
are their difference: a tip that is older than the list makes a deep output look
shallow, and the watcher takes this for a reorganisation.

It does not as long as the answers about the pinned outpoint are recent enough
for what they are used for.
-/
import LnPay.OcFreshness

namespace LnPay

/-! ## Views of the chain -/

/-- A transaction, with the addresses and values of its outputs, and what it spends with which
witness. -/
structure ChainTx where
  txid : String
  outputs : List (String × ℚ)
  inputs : List (Outpoint × Option (List String))
  deriving DecidableEq

/-- A tip the chain has had, as a backend at it sees it: the blocks from the first on, and the
mempool. -/
structure ChainView where
  blocks : List (List ChainTx)
  mempool : List ChainTx
  deriving DecidableEq

namespace ChainView

variable (v : ChainView)

/-- The height of the tip; the first block has height one. -/
def height : ℕ := v.blocks.length

/-- The height of the block of a transaction. -/
def minedAt (txid : String) : Option ℕ :=
  (v.blocks.findIdx? fun block => block.any fun tx => tx.txid = txid).map (· + 1)

/-- All transactions that are known. -/
def txs : List ChainTx := v.blocks.flatten ++ v.mempool

/-- The transaction that spends an output. -/
def spender (outpoint : Outpoint) : Option ChainTx :=
  v.txs.find? fun tx => tx.inputs.any fun i => i.1 = outpoint

/-- The outputs at an address that are not spent. -/
def utxosOf (address : String) : List RawUtxo :=
  v.txs.flatMap fun tx =>
    (tx.outputs.zipIdx.filter fun o => o.1.1 = address ∧ v.spender ⟨tx.txid, o.2⟩ = none).map
      fun o => ⟨tx.txid, o.2, o.1.2, v.minedAt tx.txid⟩

/-- Who spends an output. -/
def spendOf (outpoint : Outpoint) : SpendInfo :=
  match v.spender outpoint with
  | none => .unspent
  | some tx => .spent tx.txid (v.minedAt tx.txid).isSome
      ((tx.inputs.find? fun i => i.1 = outpoint).bind (·.2))

/-- The status of a transaction. -/
def txOf (txid : String) : TxAnswer :=
  match v.minedAt txid with
  | some h => .found true (some h)
  | none => if v.mempool.any fun tx => tx.txid = txid then .found false none else .notFound

variable {v} {v' : ChainView}

/-- The block of a transaction is below the tip. -/
theorem minedAt_le {txid : String} {h : ℕ} (hm : v.minedAt txid = some h) : h ≤ v.height := by
  obtain ⟨i, hi, rfl⟩ := Option.map_eq_some_iff.mp hm
  obtain ⟨hlt, -⟩ := List.findIdx?_eq_some_iff_getElem.mp hi
  exact hlt

/-- A chain that only grows keeps its transactions where they are. -/
theorem minedAt_of_prefix (hp : v.blocks <+: v'.blocks) {txid : String} {h : ℕ}
    (hm : v.minedAt txid = some h) : v'.minedAt txid = some h := by
  obtain ⟨rest, hrest⟩ := hp
  obtain ⟨i, hi, rfl⟩ := Option.map_eq_some_iff.mp hm
  rw [minedAt, ← hrest, List.findIdx?_append, hi]
  rfl

/-- A tip that has reached the block of a transaction has the transaction there. -/
theorem minedAt_of_height (hp : v.blocks <+: v'.blocks) {txid : String} {h : ℕ}
    (hm : v'.minedAt txid = some h) (hh : h ≤ v.height) : v.minedAt txid = some h := by
  obtain ⟨rest, hrest⟩ := hp
  obtain ⟨i, hi, rfl⟩ := Option.map_eq_some_iff.mp hm
  rw [← hrest, List.findIdx?_append] at hi
  cases hfind : v.blocks.findIdx? fun block => block.any fun tx => tx.txid = txid with
  | some j =>
    rw [hfind] at hi
    obtain rfl : j = i := Option.some.inj hi
    rw [minedAt, hfind]
    rfl
  | none =>
    rw [hfind, Option.none_or] at hi
    obtain ⟨k, -, hk⟩ := Option.map_eq_some_iff.mp hi
    have hlen : v.height = v.blocks.length := rfl
    omega

/-- An entry of the list says where its transaction is. -/
theorem blockHeight_of_mem {address : String} {u : RawUtxo} (h : u ∈ v.utxosOf address) :
    u.blockHeight = v.minedAt u.txid := by
  obtain ⟨tx, -, hu⟩ := List.mem_flatMap.mp h
  obtain ⟨o, -, rfl⟩ := List.mem_map.mp hu
  rfl

end ChainView

/-! ## Truthful and recent answers -/

/-- Every answer is unknown, or true of some tip the chain has had. -/
structure ChainAnswers.TrueOf (hist : List ChainView) (o : OnchainOrder) (a : ChainAnswers) :
    Prop where
  utxos : ∀ us, a.utxos = .known us →
    ∃ v ∈ hist, us.Perm (v.utxosOf (o.escrowAddress.getD ""))
  tip : ∀ n, a.tip = .known n → ∃ v ∈ hist, n = v.height
  outspend : ∀ p s, parseOutpoint o.fundingOutpoint = some p → a.outspend = .known s →
    ∃ v ∈ hist, s = v.spendOf p
  fundingTx : ∀ p, parseOutpoint o.fundingOutpoint = some p →
    (∃ reason, a.fundingTx = .unknown reason) ∨ ∃ v ∈ hist, a.fundingTx = v.txOf p.txid
  fundingTip : ∀ n, a.fundingTip = .known n → ∃ v ∈ hist, n = v.height
  settlementTx : ∀ txid, o.settlementTxid = some txid →
    (∃ reason, a.settlementTx = .unknown reason) ∨ ∃ v ∈ hist, a.settlementTx = v.txOf txid
  settlementTip : ∀ n, a.settlementTip = .known n → ∃ v ∈ hist, n = v.height

/-- The answers are recent enough for what they are used for, where the funding transaction is in
block `h`: a list that has the pinned outpoint is of a tip from `h` on and the tip it is counted from
is deep enough; and when the list does not have it and it is said to be unspent, the status of the
funding transaction is of a tip from `h` on. -/
structure ChainAnswers.RecentFor (hist : List ChainView) (o : OnchainOrder) (a : ChainAnswers)
    (p : Outpoint) (h : ℕ) : Prop where
  listed : ∀ us n, a.utxos = .known us → a.tip = .known n →
    (∃ u ∈ us, u.txid = p.txid ∧ u.vout = p.vout) →
    (∃ v ∈ hist, h ≤ v.height ∧ us.Perm (v.utxosOf (o.escrowAddress.getD ""))) ∧
      h + requiredConfirmations o.amountSat ≤ n + 1
  unlisted : ∀ us status, a.utxos = .known us → (∀ u ∈ us, u.txid = p.txid → u.vout ≠ p.vout) →
    a.outspend = .known .unspent → getTxStatus a.fundingTx a.fundingTip = .known status →
    ∃ v ∈ hist, h ≤ v.height ∧ a.fundingTx = v.txOf p.txid

/-! ## The daemon and the chain -/

variable {P : Type}

/-- The daemon, and the tips the chain has had, the newest first. -/
structure LagWorld where
  daemon : OcWorld
  newest : ChainView
  older : List ChainView

/-- All tips. -/
def LagWorld.hist (w : LagWorld) : List ChainView := w.newest :: w.older

/-- A step of the daemon, or a new view of the chain. -/
inductive LagInput
  | daemon (i : OcInput)
  | grow (v : ChainView)

/-- The daemon beside a chain that only grows. -/
def lagSystem (env : OcEnv P) : TransitionSystem LagWorld LagInput where
  init w := (ocSystem env).init w.daemon ∧ w.older = []
  step w
    | .daemon i => ((ocSystem env).step w.daemon i).map fun d => { w with daemon := d }
    | .grow v => if w.newest.blocks <+: v.blocks then some ⟨w.daemon, v, w.hist⟩ else none

/-- The row that a step judges, with the answers. -/
def LagWorld.judges (w : LagWorld) (i : LagInput) (p : OcRow) (answers : ChainAnswers) : Prop :=
  ∃ price rest, i = .daemon (.judge answers price) ∧ w.daemon.polling = p :: rest

/-- Every answer is true of some tip the chain has had. -/
def Truthful (w : LagWorld) (i : LagInput) : Prop :=
  ∀ p answers, w.judges i p answers → answers.TrueOf w.hist p.order

/-- The answers about a pinned outpoint before the money has flowed are recent enough. -/
def Recent (w : LagWorld) (i : LagInput) : Prop :=
  ∀ p answers pinned h, w.judges i p answers →
    (p.order.state = .funded ∨ p.order.state = .presigned) →
    parseOutpoint p.order.fundingOutpoint = some pinned →
    w.newest.minedAt pinned.txid = some h → answers.RecentFor w.hist p.order pinned h

/-- The steps of a run in which the explorer may lag, but not too far. -/
def TruthfulRecent (w : LagWorld) (i : LagInput) : Prop := Truthful w i ∧ Recent w i

section Runs

variable {env : OcEnv P} {ok : LagWorld → LagInput → Prop} {w w' : LagWorld}

/-- The daemon's part of a run is a run of the daemon. -/
theorem daemon_reachable (hw : (lagSystem env).ReachableBy ok w) :
    (ocSystem env).Reachable w.daemon := by
  induction hw with
  | init hi => exact .init hi.1
  | @step w i w' hw hok hstep ih =>
    cases i with
    | daemon i =>
      obtain ⟨d, hd, rfl⟩ := Option.map_eq_some_iff.mp hstep
      exact ih.next hd
    | grow v =>
      simp only [lagSystem] at hstep
      split at hstep
      · obtain rfl := Option.some.inj hstep
        exact ih
      · exact absurd hstep (by simp)

/-- Every tip is a part of the newest one. -/
theorem prefix_of_mem (hw : (lagSystem env).ReachableBy ok w) :
    ∀ v ∈ w.hist, v.blocks <+: w.newest.blocks := by
  induction hw with
  | @init w hi =>
    intro v hv
    rw [LagWorld.hist, hi.2, List.mem_singleton] at hv
    exact hv ▸ List.prefix_rfl
  | @step w i w' hw hok hstep ih =>
    cases i with
    | daemon i =>
      obtain ⟨d, hd, rfl⟩ := Option.map_eq_some_iff.mp hstep
      exact ih
    | grow v₁ =>
      simp only [lagSystem] at hstep
      split at hstep
      · rename_i hgrow
        obtain rfl := Option.some.inj hstep
        intro v hv
        obtain rfl | hv := List.mem_cons.mp hv
        · exact List.prefix_rfl
        · exact (ih v hv).trans hgrow
      · exact absurd hstep (by simp)

end Runs

/-! ## Outpoints as texts -/

/-- A text that splits into one piece is that piece. -/
theorem eq_of_splitOn_singleton {x xs : List Char} (h : xs.splitOn ':' = [x]) : xs = x := by
  by_cases hmem : ':' ∈ xs
  · obtain ⟨a, b, rfl⟩ := List.append_of_mem hmem
    rw [List.splitOn_append_cons_self] at h
    have hlen := congrArg List.length h
    have ha := List.length_pos_of_ne_nil (List.splitOn_ne_nil ':' a)
    have hb := List.length_pos_of_ne_nil (List.splitOn_ne_nil ':' b)
    simp only [List.length_append, List.length_singleton] at hlen
    omega
  · rw [List.splitOn_eq_singleton hmem] at h
    exact (List.cons.inj h).1

/-- What is read back from an outpoint is of the same transaction. -/
theorem txid_of_parse_format {o p : Outpoint}
    (h : parseOutpoint (some (formatOutpoint o)) = some p) : p.txid = o.txid := by
  have hdigits : ':' ∉ (toString o.vout).toList := by
    intro hmem
    rw [Nat.toString_eq_repr, Nat.toList_repr] at hmem
    exact absurd (Nat.isDigit_of_mem_toDigits (by decide) (by decide) hmem) (by decide)
  have hsplit : ((some (formatOutpoint o)).getD "").toList.splitOn ':' =
      o.txid.toList.splitOn ':' ++ [(toString o.vout).toList] := by
    have htext : (formatOutpoint o).toList = o.txid.toList ++ ':' :: (toString o.vout).toList := by
      rw [formatOutpoint, String.toList_append, String.toList_append, List.append_assoc]
      rfl
    rw [Option.getD_some, htext, List.splitOn_append_cons_self, List.splitOn_eq_singleton hdigits]
  unfold parseOutpoint at h
  rw [hsplit] at h
  split at h
  · rename_i txid vout heq
    have htxid : o.txid.toList = txid := by
      apply eq_of_splitOn_singleton
      have hpieces : o.txid.toList.splitOn ':' ++ [(toString o.vout).toList] = [txid] ++ [vout] := heq
      exact (List.append_inj' hpieces rfl).1
    split at h
    · dsimp only at h
      split at h
      · obtain rfl := Option.some.inj h
        rw [← htxid]
        exact String.ofList_toList
      · exact absurd h (by simp)
    · exact absurd h (by simp)
  · exact absurd h (by simp)

/-! ## Recent answers -/

/-- Known funds are the known list, counted from the known tip. -/
theorem getAddressFunds_known {utxos : Query (List RawUtxo)} {tip : Query ℕ} {f : AddressFunds}
    (h : getAddressFunds utxos tip = .known f) :
    ∃ us n, utxos = .known us ∧ tip = .known n ∧
      f.confirmed = (us.filter fun u => u.blockHeight.isSome).map (RawUtxo.counted n) ∧
      f.mempool = (us.filter fun u => u.blockHeight.isNone).map (RawUtxo.counted n) := by
  unfold getAddressFunds at h
  split at h
  · cases h
  · cases h
  · rename_i us n htip
    obtain rfl := Query.known.inj h
    exact ⟨us, n, rfl, (getTipHeight_known.mp htip).1, rfl, rfl⟩

/-- Recent answers do not make a funding look shallow or gone. -/
theorem not_knownShallow {hist : List ChainView} {newest : ChainView} {o : OnchainOrder}
    {a : ChainAnswers} {pinned : Outpoint} {h : ℕ}
    (hinitial : ∀ v ∈ hist, v.blocks <+: newest.blocks) (hm : newest.minedAt pinned.txid = some h)
    (hp : parseOutpoint o.fundingOutpoint = some pinned)
    (hfunds : fundsOf o a = getAddressFunds a.utxos a.tip) (hr : a.RecentFor hist o pinned h) :
    ¬ KnownShallow o a := by
  rintro ⟨p, f, hp', hf, hcase⟩
  obtain rfl := Option.some.inj (hp.symm.trans hp')
  rw [hfunds] at hf
  obtain ⟨us, n, hus, hn, hconfirmed, hmempool⟩ := getAddressFunds_known hf
  -- an entry of the list for the pinned outpoint is in block `h`
  have hentry : ∀ u ∈ us, u.txid = pinned.txid → u.vout = pinned.vout →
      u.blockHeight = some h ∧ h + requiredConfirmations o.amountSat ≤ n + 1 := by
    intro u hu htxid hvout
    obtain ⟨⟨v, hv, hh, hperm⟩, hdeep⟩ := hr.listed us n hus hn ⟨u, hu, htxid, hvout⟩
    refine ⟨?_, hdeep⟩
    rw [ChainView.blockHeight_of_mem (hperm.mem_iff.mp hu), htxid]
    exact ChainView.minedAt_of_height (hinitial v hv) hm hh
  obtain ⟨u, hu, hpin, hshallow⟩ | ⟨u, hu, hpin⟩ | ⟨hnone, hunspent, status, hstatus, hbad⟩ := hcase
  · rw [hconfirmed] at hu
    obtain ⟨e, he, rfl⟩ := List.mem_map.mp hu
    obtain ⟨htxid, hvout⟩ := Outpoint.mk.inj hpin
    obtain ⟨hheight, hdeep⟩ := hentry e (List.mem_filter.mp he).1 htxid hvout
    have hcount : (RawUtxo.counted n e).confirmations = n + 1 - h := by
      simp [RawUtxo.counted, hheight]
    omega
  · rw [hmempool] at hu
    obtain ⟨e, he, rfl⟩ := List.mem_map.mp hu
    obtain ⟨htxid, hvout⟩ := Outpoint.mk.inj hpin
    obtain ⟨hmem, hpending⟩ := List.mem_filter.mp he
    rw [(hentry e hmem htxid hvout).1] at hpending
    exact absurd hpending (by simp)
  · have hunlisted : ∀ u ∈ us, u.txid = pinned.txid → u.vout ≠ pinned.vout := by
      intro u hu htxid hvout
      have hheight := (hentry u hu htxid hvout).1
      refine hnone (RawUtxo.counted n u) ?_ ?_
      · rw [hconfirmed]
        exact List.mem_map_of_mem (List.mem_filter.mpr ⟨hu, by rw [hheight]; rfl⟩)
      · show (⟨u.txid, u.vout⟩ : Outpoint) = pinned
        rw [htxid, hvout]
    obtain ⟨v, hv, hh, htx⟩ := hr.unlisted us status hus hunlisted hunspent hstatus
    rw [htx, ChainView.txOf, ChainView.minedAt_of_height (hinitial v hv) hm hh] at hstatus
    cases htip : getTipHeight a.fundingTip with
    | unknown reason =>
      simp only [getTxStatus, htip] at hstatus
      cases hstatus
    | known t =>
      simp only [getTxStatus, htip] at hstatus
      obtain rfl := Query.known.inj hstatus
      simp at hbad

/-! ## Funded orders are in the chain -/

/-- How an order comes to be funded, or stays so. -/
theorem OcChange.pins {c : OcCause} {o o' : OnchainOrder} {m m' : OcMeta}
    (h : OcChange c o m o' m') (hs : o'.state = .funded ∨ o'.state = .presigned) :
    (∃ p n k, c.acts o (.fund p n k) ∧ o'.fundingOutpoint = some (formatOutpoint p)) ∨
      ((o.state = .funded ∨ o.state = .presigned) ∧ o'.fundingOutpoint = o.fundingOutpoint) := by
  cases h with
  | fund p n k fee hact => exact .inl ⟨p, n, k, hact, rfl⟩
  | presig psbt hfunded hk => exact .inr ⟨.inl hfunded, rfl⟩
  | account commitment hpresigned hk ha => exact .inr ⟨.inr hpresigned, rfl⟩
  | objection hpresigned hk => exact .inr ⟨.inr hpresigned, rfl⟩
  | decide kind feeSat fold o₁ hmay ho hb =>
    subst ho
    dsimp only at hs
    split at hs
    · rename_i hruling
      rw [(mayDecide_state hmay).2 hruling] at hs
      simp at hs
    · simp at hs
  | confirmed kind hk hact => cases kind <;> simp [SettlementKind.terminal] at hs
  | resolve kind hk hkind hstate hres =>
    obtain h | h | h := hstate <;> simp [h] at hs
  | bond | remit | dispute | cancel | reorg | cosign | adopt | sweep => simp at hs

/-- In every run with truthful answers, the funding of an order is in the chain before the money has
flowed. -/
theorem mined_of_funded {env : OcEnv P} {ok : LagWorld → LagInput → Prop}
    (hok : ∀ w i, ok w i → Truthful w i) {w : LagWorld} (hw : (lagSystem env).ReachableBy ok w) :
    ∀ id r pinned, getOc id w.daemon.db = some r →
      (r.order.state = .funded ∨ r.order.state = .presigned) →
      parseOutpoint r.order.fundingOutpoint = some pinned →
      ∃ h, w.newest.minedAt pinned.txid = some h := by
  induction hw with
  | init hi =>
    intro id r pinned hr
    obtain ⟨now, hnow⟩ := hi.1
    rw [hnow] at hr
    cases hr
  | @step w i w' hw hi hstep ih =>
    intro id r' pinned hr' hs hp
    have hdaemon := daemon_reachable hw
    cases i with
    | grow v =>
      simp only [lagSystem] at hstep
      split at hstep
      · rename_i hgrow
        obtain rfl := Option.some.inj hstep
        obtain ⟨h, hm⟩ := ih id r' pinned hr' hs hp
        exact ⟨h, ChainView.minedAt_of_prefix hgrow hm⟩
      · exact absurd hstep (by simp)
    | daemon i =>
      obtain ⟨d, hd, rfl⟩ := Option.map_eq_some_iff.mp hstep
      obtain ⟨r, hr, hrow⟩ | hfresh := (step_next hd).back hr'
      · cases hrow with
        | noted ho hm hv =>
          rw [ho] at hs hp
          exact ih id r pinned hr hs hp
        | changed o' hchange hlegal ho hv =>
          rw [ho] at hs hp
          obtain ⟨p, n, k, hact, hpin⟩ | ⟨hs', hpin⟩ := hchange.pins hs
          · have hact : Judged env w.daemon i r.order (.fund p n k) := hact
            obtain ⟨answers, price, row, rest, facts, r₂, rfl, hpoll, hrow, -, -, -, hfacts, ha⟩ :=
              hact.asked hdaemon
            obtain ⟨hbonded, hverdict⟩ := fund_of_decide ha.symm
            obtain ⟨f, u, hf, hconfirmed, hu, -⟩ := judgeFunding_funded hverdict
            have haddress := addressed_of_reachable hdaemon hr (by rw [hbonded]; rfl)
            have hfunds : facts.funds = .known f := hf
            rw [(gather_ok hfacts).1, fundsOf_eq haddress] at hfunds
            obtain ⟨us, tip, hus, -, hlist, -⟩ := getAddressFunds_known hfunds
            have hmem : u ∈ f.confirmed := by rw [hconfirmed]; exact List.mem_singleton_self u
            rw [hlist] at hmem
            obtain ⟨e, he, rfl⟩ := List.mem_map.mp hmem
            obtain ⟨hemem, hsome⟩ := List.mem_filter.mp he
            obtain ⟨v, hv, hperm⟩ :=
              (hok _ _ hi row answers ⟨price, rest, rfl, hpoll⟩).utxos us hus
            have hheight := ChainView.blockHeight_of_mem (hperm.mem_iff.mp hemem)
            obtain ⟨h, hh⟩ := Option.isSome_iff_exists.mp hsome
            have htxid : pinned.txid = e.txid := by
              change parseOutpoint o'.fundingOutpoint = some pinned at hp
              rw [hpin] at hp
              rw [txid_of_parse_format hp, ← hu]
              rfl
            refine ⟨h, ChainView.minedAt_of_prefix (prefix_of_mem hw v hv) ?_⟩
            rw [htxid, ← hheight, hh]
          · change parseOutpoint o'.fundingOutpoint = some pinned at hp
            rw [hpin] at hp
            exact ih id r pinned hr hs' hp
      · rw [hfresh.listed] at hs
        simp at hs

/-! ## The result -/

/-- A funded order keeps its price, its deadline, its presignature and its account, and does not go
back. -/
structure FundingKept (r r' : OcRow) : Prop where
  state : r'.order.state ≠ .bonded
  price : r'.order.priceKrw = r.order.priceKrw
  deadline : r'.order.fundingDeadline = r.order.fundingDeadline
  presig : r.order.state = .presigned → r'.ocMeta.presigPsbt = r.ocMeta.presigPsbt
  account : nonzero r.order.accountSentAt ≠ none →
    r'.order.accountSentAt = r.order.accountSentAt

/-- Every change but going back keeps the funding. -/
theorem OcChange.keepsFunding {c : OcCause} {o o' : OnchainOrder} {m m' : OcMeta}
    (h : OcChange c o m o' m') (hs : o.state = .funded ∨ o.state = .presigned)
    (hfund : ∀ p n k, ¬ c.acts o (.fund p n k)) (hb : o'.state ≠ .bonded) :
    o'.priceKrw = o.priceKrw ∧ o'.fundingDeadline = o.fundingDeadline ∧
      (o.state = .presigned → m'.presigPsbt = m.presigPsbt) ∧
      (nonzero o.accountSentAt ≠ none → o'.accountSentAt = o.accountSentAt) := by
  cases h with
  | bond sponsor info adminXonly address blocks hash expiresAt hlisted ha =>
    rw [hlisted] at hs
    simp at hs
  | fund p n k fee hact => exact absurd hact (hfund p n k)
  | reorg hact => exact absurd rfl hb
  | presig psbt hfunded hk =>
    refine ⟨rfl, rfl, fun hpresigned => ?_, fun _ => rfl⟩
    rw [hfunded] at hpresigned
    exact absurd hpresigned (by simp)
  | account commitment hpresigned hk ha => exact ⟨rfl, rfl, fun _ => rfl, fun hne => absurd ha hne⟩
  | decide kind feeSat fold o₁ hmay ho hbuild =>
    subst ho
    exact ⟨rfl, rfl, fun _ => rfl, fun _ => rfl⟩
  | remit | dispute | objection | cancel | cosign | adopt | sweep | confirmed | resolve =>
    exact ⟨rfl, rfl, fun _ => rfl, fun _ => rfl⟩

/-- **A lagging explorer is no reorganisation**, as long as no answer is older than what it is used
for: in every run whose steps are such, no order goes back to `bonded` before the money has flowed,
and none loses its price, presignature, account or deadline. -/
theorem lag_is_no_reorg (env : OcEnv P) {w w' : LagWorld} {i : LagInput}
    (hw : (lagSystem env).ReachableBy TruthfulRecent w) (hi : TruthfulRecent w i)
    (h : (lagSystem env).step w i = some w') {id : OrderId} {r : OcRow}
    (hr : getOc id w.daemon.db = some r) (hs : r.order.state = .funded ∨ r.order.state = .presigned) :
    ∃ r', getOc id w'.daemon.db = some r' ∧ FundingKept r r' := by
  have hne : r.order.state ≠ .bonded := by
    obtain hs | hs := hs <;> rw [hs] <;> simp
  have hdaemon := daemon_reachable hw
  cases i with
  | grow v =>
    simp only [lagSystem] at h
    split at h
    · obtain rfl := Option.some.inj h
      exact ⟨r, hr, hne, rfl, rfl, fun _ => rfl, fun _ => rfl⟩
    · exact absurd h (by simp)
  | daemon i =>
    obtain ⟨d, hd, rfl⟩ := Option.map_eq_some_iff.mp h
    obtain ⟨r', hr', hrow⟩ := (step_next hd).row hr
    refine ⟨r', hr', ?_⟩
    -- recent answers never say that the order goes back
    have hstay : r'.order.state ≠ .bonded := by
      intro hback
      obtain ⟨answers, price, p, rest, rfl, hpoll, ho, -, hfunds, hshallow⟩ :=
        knownBack_of_bonded hdaemon hd hr hr' hs hback
      have hpin := hshallow
      obtain ⟨pinned, f, hp, -⟩ := hpin
      obtain ⟨k, hm⟩ := mined_of_funded (fun _ _ hok => hok.1) hw _ r pinned hr hs hp
      have hrecent := hi.2 p answers pinned k ⟨price, rest, rfl, hpoll⟩ (ho ▸ hs) (ho ▸ hp) hm
      rw [ho] at hrecent
      exact not_knownShallow (prefix_of_mem hw) hm hp hfunds hrecent hshallow
    cases hrow with
    | noted ho hm hv =>
      refine ⟨hstay, by rw [ho], by rw [ho], fun _ => ?_, fun _ => by rw [ho]⟩
      exact OcMeta.of_record OcMeta.presigPsbt (fun _ => rfl) hm
    | changed o' hchange hlegal ho hv =>
      have hfund : ∀ p n k, ¬ (w.daemon.cause env i).acts r.order (.fund p n k) := by
        intro p n k hact
        obtain ⟨ctx, hdecide⟩ := Judged.decided hact
        exact hne (fund_of_decide hdecide).1
      have hb : o'.state ≠ .bonded := by
        rw [ho] at hstay
        exact hstay
      obtain ⟨hprice, hdeadline, hpresig, haccount⟩ := hchange.keepsFunding hs hfund hb
      refine ⟨hstay, ?_, ?_, hpresig, ?_⟩
      · rw [ho]
        exact hprice
      · rw [ho]
        exact hdeadline
      · rw [ho]
        exact haccount

/-! ## A stale tip -/

/-- Truthful answers alone keep an order from going back. -/
def LagHarmless (env : OcEnv P) : Prop :=
  ∀ w w' i id r r', (lagSystem env).ReachableBy Truthful w → Truthful w i →
    (lagSystem env).step w i = some w' → getOc id w.daemon.db = some r →
    (r.order.state = .funded ∨ r.order.state = .presigned) → getOc id w'.daemon.db = some r' →
    r'.order.state ≠ .bonded

/-- Before the funding. -/
def lagStart : ChainView := ⟨[[]], []⟩

/-- The funding is in the second block. -/
def lagMined : ChainView :=
  ⟨[[], [⟨tradeTxid, [("bc1qchange", 1000), (samplePayment.address.getD "", 50000)], []⟩]], []⟩

/-- The list of the newest tip, counted from a tip of this height; the rest is not known. -/
def lagAnswers (n : ℕ) : ChainAnswers where
  utxos := .known [⟨tradeTxid, 1, 50000, some 2⟩]
  tip := .known n
  outspend := .unknown "HTTP 429"
  fundingTx := .unknown "HTTP 429"
  fundingTip := .unknown "HTTP 429"
  settlementTx := .unknown "HTTP 429"
  settlementTip := .unknown "HTTP 429"

theorem utxosOf_lagMined : lagMined.utxosOf (samplePayment.address.getD "") =
    [⟨tradeTxid, 1, 50000, some 2⟩] := by
  decide +kernel

theorem lagAnswers_true {n : ℕ} (hn : n = 1 ∨ n = 2) {o : OnchainOrder}
    (ha : o.escrowAddress = samplePayment.address) :
    (lagAnswers n).TrueOf [lagMined, lagStart] o where
  utxos us hus := by
    obtain rfl := Query.known.inj hus
    refine ⟨lagMined, List.mem_cons_self, ?_⟩
    rw [ha, utxosOf_lagMined]
  tip t ht := by
    obtain rfl := Query.known.inj ht
    obtain rfl | rfl := hn
    · exact ⟨lagStart, by simp, rfl⟩
    · exact ⟨lagMined, by simp, rfl⟩
  outspend _ _ _ h := by cases h
  fundingTx _ _ := .inl ⟨_, rfl⟩
  fundingTip _ h := by cases h
  settlementTx _ _ := .inl ⟨_, rfl⟩
  settlementTip _ h := by cases h

/-- The newest answers are recent enough. -/
theorem lagAnswers_recent {o : OnchainOrder} (ha : o.escrowAddress = samplePayment.address)
    (hamount : o.amountSat = 50000) {pinned : Outpoint} {h : ℕ}
    (hm : lagMined.minedAt pinned.txid = some h) :
    (lagAnswers 2).RecentFor [lagMined, lagStart] o pinned h where
  listed us n hus hn _ := by
    obtain rfl := Query.known.inj hus
    obtain rfl := Query.known.inj hn
    have hh : h ≤ 2 := ChainView.minedAt_le hm
    refine ⟨⟨lagMined, List.mem_cons_self, hh, by rw [ha, utxosOf_lagMined]⟩, ?_⟩
    have hrequired : requiredConfirmations o.amountSat = 1 := by rw [hamount]; decide +kernel
    omega
  unlisted _ _ _ _ hunspent _ := by cases hunspent

/-- A step that judges nothing is truthful. -/
theorem truthfulRecent_of_daemon {w : LagWorld} {i : OcInput}
    (hi : ∀ answers price, i ≠ .judge answers price) : TruthfulRecent w (.daemon i) :=
  ⟨fun _ answers ⟨price, _, heq, _⟩ => absurd (LagInput.daemon.inj heq) (hi answers price),
    fun _ answers _ _ ⟨price, _, heq, _⟩ => absurd (LagInput.daemon.inj heq) (hi answers price)⟩

/-- A run of the daemon that judges nothing. -/
theorem lag_daemon_run {env : OcEnv P} {is : List OcInput} {d d' : OcWorld} {newest : ChainView}
    {older : List ChainView} (hw : (lagSystem env).ReachableBy TruthfulRecent ⟨d, newest, older⟩)
    (hrun : (ocSystem env).run d is = some d')
    (his : ∀ i ∈ is, ∀ answers price, i ≠ .judge answers price) :
    (lagSystem env).ReachableBy TruthfulRecent ⟨d', newest, older⟩ := by
  induction is generalizing d with
  | nil =>
    obtain rfl := Option.some.inj hrun
    exact hw
  | cons i is ih =>
    obtain ⟨d₁, hstep, hrun⟩ := Option.bind_eq_some_iff.mp hrun
    refine ih (.step hw (i := .daemon i) (truthfulRecent_of_daemon (his i List.mem_cons_self)) ?_) hrun
      fun j hj => his j (List.mem_cons_of_mem _ hj)
    simp only [lagSystem, hstep, Option.map_some]

/-- The trade is funded in the second block, and another poll has begun; counted from the tip before
the block, the order goes back. -/
theorem lag_run :
    ∃ w p r, (lagSystem tradeEnv).ReachableBy TruthfulRecent w ∧ w.newest = lagMined ∧
      w.older = [lagStart] ∧ w.daemon.polling.head? = some p ∧
      p.order.escrowAddress = samplePayment.address ∧ p.order.amountSat = 50000 ∧
      getOc "trade-1" w.daemon.db = some r ∧ r.order.state = .funded ∧
      ∃ w' r', (lagSystem tradeEnv).step w (.daemon (.judge (lagAnswers 1) none)) = some w' ∧
        getOc "trade-1" w'.daemon.db = some r' ∧ r'.order.state = .bonded := by
  have hrun : (((ocSystem tradeEnv).run (OcWorld.init 0) (tradeInputs.take 4)).bind fun a =>
      a.polling.head?.bind fun p =>
        ((ocSystem tradeEnv).step a (.judge (lagAnswers 2) (some 100000000))).bind fun b =>
          ((ocSystem tradeEnv).step b .poll).bind fun c => c.polling.head?.bind fun q =>
            (getOc "trade-1" c.db).bind fun r =>
              ((ocSystem tradeEnv).step c (.judge (lagAnswers 1) none)).bind fun d =>
                (getOc "trade-1" d.db).map fun r' => decide (
                  (p.order.escrowAddress = samplePayment.address ∧ p.order.state = .bonded) ∧
                  (q.order.escrowAddress = samplePayment.address ∧ q.order.amountSat = 50000) ∧
                  r.order.state = .funded ∧ r'.order.state = .bonded)) = some true := by
    unfold tradeEnv tradeLib sampleLib
    rw [samplePayment_eq, sampleSingle_eq]
    decide +kernel
  obtain ⟨a, ha, hrun⟩ := Option.bind_eq_some_iff.mp hrun
  obtain ⟨p, hp, hrun⟩ := Option.bind_eq_some_iff.mp hrun
  obtain ⟨b, hb, hrun⟩ := Option.bind_eq_some_iff.mp hrun
  obtain ⟨c, hc, hrun⟩ := Option.bind_eq_some_iff.mp hrun
  obtain ⟨q, hq, hrun⟩ := Option.bind_eq_some_iff.mp hrun
  obtain ⟨r, hr, hrun⟩ := Option.bind_eq_some_iff.mp hrun
  obtain ⟨d, hd, hrun⟩ := Option.bind_eq_some_iff.mp hrun
  obtain ⟨r', hr', hrun⟩ := Option.map_eq_some_iff.mp hrun
  obtain ⟨⟨hpa, hps⟩, ⟨hqa, hqm⟩, hrs, hrs'⟩ := of_decide_eq_true hrun
  have hstart : (lagSystem tradeEnv).ReachableBy TruthfulRecent ⟨a, lagStart, []⟩ :=
    lag_daemon_run (.init ⟨⟨0, rfl⟩, rfl⟩) ha (by simp [tradeInputs])
  have hgrow : (lagSystem tradeEnv).ReachableBy TruthfulRecent ⟨a, lagMined, [lagStart]⟩ := by
    have hok : TruthfulRecent ⟨a, lagStart, []⟩ (.grow lagMined) := by
      constructor
      · rintro p answers ⟨price, rest, heq, -⟩
        cases heq
      · rintro p answers pinned h ⟨price, rest, heq, -⟩
        cases heq
    refine .step hstart hok ?_
    simp [lagSystem, LagWorld.hist, lagStart, lagMined]
  have hfunded : (lagSystem tradeEnv).ReachableBy TruthfulRecent ⟨b, lagMined, [lagStart]⟩ := by
    refine .step hgrow (i := .daemon (.judge (lagAnswers 2) (some 100000000))) ⟨?_, ?_⟩
      (by simp only [lagSystem, hb, Option.map_some])
    · rintro p' answers ⟨price, rest, heq, hpoll⟩
      obtain ⟨rfl, -⟩ := OcInput.judge.inj (LagInput.daemon.inj heq)
      change a.polling = p' :: rest at hpoll
      rw [hpoll] at hp
      obtain rfl := Option.some.inj hp
      exact lagAnswers_true (.inr rfl) hpa
    · rintro p' answers pinned h ⟨price, rest, heq, hpoll⟩ hs
      change a.polling = p' :: rest at hpoll
      rw [hpoll] at hp
      obtain rfl := Option.some.inj hp
      rw [hps] at hs
      simp at hs
  have hpolled : (lagSystem tradeEnv).ReachableBy TruthfulRecent ⟨c, lagMined, [lagStart]⟩ :=
    .step hfunded (i := .daemon .poll) (truthfulRecent_of_daemon (by simp))
      (by simp only [lagSystem, hc, Option.map_some])
  exact ⟨_, q, r, hpolled, rfl, rfl, hq, hqa, hqm, hr, hrs, ⟨d, lagMined, [lagStart]⟩, r',
    by simp only [lagSystem, hd, Option.map_some], hr', hrs'⟩

/-- A list counted from an older tip takes the order back. -/
theorem stale_tip_takes_back : ¬ LagHarmless tradeEnv := by
  intro hclaim
  obtain ⟨w, p, r, hw, hnewest, holder, hp, ha, hm, hr, hs, w', r', hstep, hr', hs'⟩ := lag_run
  refine hclaim w w' _ "trade-1" r r' (hw.mono fun _ _ hok => hok.1) ?_ hstep hr (.inl hs) hr' hs'
  rintro p' answers ⟨price, rest, heq, hpoll⟩
  obtain ⟨rfl, -⟩ := OcInput.judge.inj (LagInput.daemon.inj heq)
  rw [hpoll] at hp
  obtain rfl := Option.some.inj hp
  rw [LagWorld.hist, hnewest, holder]
  exact lagAnswers_true (.inl rfl) ha

/-- Counted from the newest tip, the order stays. -/
theorem lag_is_no_reorg_newest :
    ∃ w w' r r', (lagSystem tradeEnv).step w (.daemon (.judge (lagAnswers 2) none)) = some w' ∧
      getOc "trade-1" w.daemon.db = some r ∧ r.order.state = .funded ∧
      getOc "trade-1" w'.daemon.db = some r' ∧ FundingKept r r' := by
  obtain ⟨w, p, r, hw, hnewest, holder, hp, ha, hm, hr, hs, -⟩ := lag_run
  obtain ⟨rest, hpoll⟩ := List.head?_eq_some_iff.mp hp
  have hok : TruthfulRecent w (.daemon (.judge (lagAnswers 2) none)) := by
    refine ⟨?_, ?_⟩
    · rintro p' answers ⟨price, rest', heq, hpoll'⟩
      obtain ⟨rfl, -⟩ := OcInput.judge.inj (LagInput.daemon.inj heq)
      obtain ⟨rfl, -⟩ := List.cons.inj (hpoll.symm.trans hpoll')
      rw [LagWorld.hist, hnewest, holder]
      exact lagAnswers_true (.inr rfl) ha
    · rintro p' answers pinned h ⟨price, rest', heq, hpoll'⟩ - - hmined
      obtain ⟨rfl, -⟩ := OcInput.judge.inj (LagInput.daemon.inj heq)
      obtain ⟨rfl, -⟩ := List.cons.inj (hpoll.symm.trans hpoll')
      rw [hnewest] at hmined
      rw [LagWorld.hist, hnewest, holder]
      exact lagAnswers_recent ha hm hmined
  have hstep : (lagSystem tradeEnv).step w (.daemon (.judge (lagAnswers 2) none)) =
      some { w with daemon := w.daemon.judge tradeEnv p rest (lagAnswers 2) none } := by
    simp only [lagSystem, ocSystem, OcWorld.step, hpoll, Option.map_some]
  obtain ⟨r', hr', hkept⟩ := lag_is_no_reorg tradeEnv hw hok hstep hr (.inl hs)
  exact ⟨w, _, r, r', hstep, hr, hs, hr', hkept⟩

end LnPay
