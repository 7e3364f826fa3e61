/-
# What a published order has to say (`shared/src/onchain/order.ts`, `daemon/src/onchain/effects.ts`)

The event of an order is replaced by every new one, so a tag that is left out is
gone.  `onchainOrderIssues` names the fields that must be there, by the state; it
is looked at before an order is published, and only logged.

The daemon fills the fields on its own way through the states.  There is one way
that it does not go itself: an order is folded before there is a price, and its
two parties release the funding on the chain.  The watcher follows them to
`released`, without a price.
-/
import LnPay.OcTerminals
import LnPay.OcReorg

namespace LnPay

variable {P : Type}

/-! ## The fields that must be there -/

/-- `onchainOrderIssues`. -/
def onchainOrderIssues (order : OnchainOrder) : List String :=
  let need (cond : Bool) (what : String) : List String := if cond then [] else [what]
  (if order.state ≠ .listed ∧ order.state ≠ .cancelled then
    need (given order.sponsorPubkey).isSome "sponsor" ++
    need ((given order.customerXonly).isSome && (given order.sponsorXonly).isSome &&
      (given order.adminXonly).isSome) "xonly 3종" ++
    need (given order.escrowAddress).isSome "escrow-address" ++
    need (order.timelockBlocks.filter (· ≠ 0)).isSome "timelock-blocks"
  else []) ++
  -- the output is spent in all of these, with a price or without
  (if order.state ≠ .listed ∧ order.state ≠ .bonded ∧ order.state ≠ .cancelled then
    need (given order.fundingOutpoint).isSome "funding-outpoint"
  else []) ++
  (if order.state ∈ [OnchainState.funded, .presigned, .remitted, .disputed, .released] then
    need (nonzero order.priceKrw).isSome "price-krw" ++
    need (order.payoutSat.filter (· ≠ 0)).isSome "payout-sat" ++
    need (nonzero order.fundedAt).isSome "funded-at"
  else []) ++
  (if order.state = .refunding then
    need order.settlementKind.isSome "settlement-kind" ++
    need order.settlementFeeSat.isSome "settlement-fee-sat"
  else []) ++
  (if order.state = .disputed ∧ order.settlementKind.isSome then
    need order.settlementFeeSat.isSome "settlement-fee-sat"
  else []) ++
  (if order.state = .settling then
    need order.settlementKind.isSome "settlement-kind" ++
    need (given order.settlementTxid).isSome "settlement-txid"
  else [])

/-- The price has been fixed. -/
structure OnchainOrder.Priced (o : OnchainOrder) : Prop where
  price : (nonzero o.priceKrw).isSome
  payout : (o.payoutSat.filter (· ≠ 0)).isSome
  funded : (nonzero o.fundedAt).isSome

/-- The escrow has been made. -/
structure OnchainOrder.Escrowed (o : OnchainOrder) : Prop where
  sponsor : (given o.sponsorPubkey).isSome
  keys : (given o.customerXonly).isSome ∧ (given o.sponsorXonly).isSome ∧ (given o.adminXonly).isSome
  address : (given o.escrowAddress).isSome
  timelock : (o.timelockBlocks.filter (· ≠ 0)).isSome

/-- The states of the trades that have a price. -/
def pricedStates : List OnchainState := [.funded, .presigned, .remitted, .disputed, .released]

example : OnchainState.swept ∉ pricedStates := by decide +kernel

/-- Everything that a state asks for is there; what is to be released has a price, and what comes
with a price comes with it. -/
structure OnchainOrder.Complete (o : OnchainOrder) : Prop where
  together : (nonzero o.priceKrw).isSome → o.Priced
  claimed : o.state ≠ .listed → o.state ≠ .cancelled → o.Escrowed
  pinned : o.state ≠ .listed → o.state ≠ .bonded → o.state ≠ .cancelled →
    (given o.fundingOutpoint).isSome
  priced : o.state ∈ pricedStates ∨ o.settlementKind = some .release → o.Priced
  refunding : o.state = .refunding → o.settlementKind.isSome ∧ o.settlementFeeSat.isSome
  ruled : o.state = .disputed → o.settlementKind.isSome → o.settlementFeeSat.isSome
  settling : o.state = .settling → o.settlementKind.isSome ∧ (given o.settlementTxid).isSome

theorem issues_of_complete {o : OnchainOrder} (h : o.Complete) : onchainOrderIssues o = [] := by
  unfold onchainOrderIssues
  dsimp only
  simp only [List.append_eq_nil_iff]
  refine ⟨⟨⟨⟨⟨?_, ?_⟩, ?_⟩, ?_⟩, ?_⟩, ?_⟩
  · split
    · rename_i hs
      obtain ⟨hsponsor, ⟨hc, hx, ha⟩, haddress, htimelock⟩ := h.claimed hs.1 hs.2
      simp only [hsponsor, hc, hx, ha, haddress, htimelock, Bool.and_self, if_true, List.append_nil]
    · rfl
  · split
    · rename_i hs
      simp [h.pinned hs.1 hs.2.1 hs.2.2]
    · rfl
  · split
    · rename_i hs
      obtain ⟨hprice, hpayout, hfunded⟩ := h.priced (.inl hs)
      simp only [hprice, hpayout, hfunded, if_true, List.append_nil]
    · rfl
  · split
    · rename_i hs
      simp [h.refunding hs]
    · rfl
  · split
    · rename_i hs
      simp [h.ruled hs.1 hs.2]
    · rfl
  · split
    · rename_i hs
      simp [h.settling hs]
    · rfl

/-! ## What a change keeps -/

theorem given_isSome {s : String} (h : s ≠ "") : (given (some s)).isSome := by
  rw [given, Option.filter_some, if_pos (by simpa using h)]
  rfl

/-- Which orders a settlement is decided for. -/
theorem mayDecide_cases {kind : SettlementKind} {fold : Bool} {o : OnchainOrder}
    (h : OcCtx.mayDecide kind fold o = true) :
    (OcCtx.isRuling kind = true ∧ o.state = .disputed) ∨
      (OcCtx.isRuling kind = false ∧ ((fold = true ∧ o.state = .bonded) ∨
        (fold = false ∧ (o.state = .funded ∨ o.state = .presigned)))) := by
  obtain ⟨-, hstate⟩ := (Bool.and_eq_true _ _).mp h
  cases kind with
  | release => cases hstate
  | sponsorWin | customerWin => exact .inl ⟨rfl, of_decide_eq_true hstate⟩
  | refundReserve | refundSponsorTimeout | refundCustomerLate | refundBondExpired
  | refundAccountDisputed =>
    right
    refine ⟨rfl, ?_⟩
    cases fold with
    | true => exact .inl ⟨rfl, of_decide_eq_true hstate⟩
    | false => exact .inr ⟨rfl, by simpa using hstate⟩

theorem OnchainOrder.Escrowed.congr {o o' : OnchainOrder} (h : o.Escrowed)
    (hsame : (o'.sponsorPubkey, o'.customerXonly, o'.sponsorXonly, o'.adminXonly, o'.escrowAddress,
      o'.timelockBlocks) = (o.sponsorPubkey, o.customerXonly, o.sponsorXonly, o.adminXonly,
      o.escrowAddress, o.timelockBlocks)) : o'.Escrowed := by
  simp only [Prod.mk.injEq] at hsame
  obtain ⟨hsponsor, hcustomer, hx, hadmin, haddress, hblocks⟩ := hsame
  exact ⟨hsponsor ▸ h.sponsor, by rw [hcustomer, hx, hadmin]; exact h.keys, haddress ▸ h.address,
    hblocks ▸ h.timelock⟩

theorem OnchainOrder.Priced.congr {o o' : OnchainOrder} (h : o.Priced)
    (hsame : (o'.priceKrw, o'.payoutSat, o'.fundedAt) = (o.priceKrw, o.payoutSat, o.fundedAt)) :
    o'.Priced := by
  simp only [Prod.mk.injEq] at hsame
  obtain ⟨hprice, hpayout, hfunded⟩ := hsame
  exact ⟨hprice ▸ h.price, hpayout ▸ h.payout, hfunded ▸ h.funded⟩

/-- An order keeps its escrow and its price as it goes on; what its new state asks for is left. -/
theorem OnchainOrder.Complete.advance {o o' : OnchainOrder} (h : o.Complete)
    (hclaimed : o.state ≠ .listed ∧ o.state ≠ .cancelled)
    (hescrow : (o'.sponsorPubkey, o'.customerXonly, o'.sponsorXonly, o'.adminXonly,
      o'.escrowAddress, o'.timelockBlocks) = (o.sponsorPubkey, o.customerXonly, o.sponsorXonly,
      o.adminXonly, o.escrowAddress, o.timelockBlocks))
    (hprice : (o'.priceKrw, o'.payoutSat, o'.fundedAt) = (o.priceKrw, o.payoutSat, o.fundedAt))
    (hpinned : o'.state ≠ .bonded → (given o'.fundingOutpoint).isSome)
    (hpriced : o'.state ∈ pricedStates ∨ o'.settlementKind = some .release → o.Priced)
    (hrefunding : o'.state = .refunding → o'.settlementKind.isSome ∧ o'.settlementFeeSat.isSome)
    (hruled : o'.state = .disputed → o'.settlementKind.isSome → o'.settlementFeeSat.isSome)
    (hsettling : o'.state = .settling → o'.settlementKind.isSome ∧ (given o'.settlementTxid).isSome) :
    o'.Complete where
  together hp := by
    have hsame : o'.priceKrw = o.priceKrw := congrArg Prod.fst hprice
    exact (h.together (hsame ▸ hp)).congr hprice
  claimed _ _ := (h.claimed hclaimed.1 hclaimed.2).congr hescrow
  pinned _ hb _ := hpinned hb
  priced hp := (hpriced hp).congr hprice
  refunding := hrefunding
  ruled := hruled
  settling := hsettling

/-- What is known of a step beside the change it makes. -/
structure Foresight (c : OcCause) (o : OnchainOrder) : Prop where
  claims : ∀ p, c.claims p → p ≠ ""
  funds : ∀ outpoint n k, c.acts o (.fund outpoint n k) → o.state = .bonded ∧ k ≠ 0 ∧ c.now ≠ 0
  reorgs : c.acts o .reorg → o.state = .funded ∨ o.state = .presigned
  disputes : c.acts o .dispute → o.state = .remitted
  ends : c.acts o .confirmed → o.state = .settling
  completes : ∀ m kind txid rawHex, c.completes o m kind txid rawHex → txid ≠ ""
  spends : ∀ txid leaf, c.acts o (.observeSpend txid leaf) → txid ≠ "" ∧
    (leaf = some .release → o.Priced) ∧ o.state ≠ .listed ∧ o.state ≠ .bonded ∧ o.state ≠ .cancelled

/-- A settlement that is adopted is a release only when the spend is one, or it was one before. -/
theorem adoptedKind_release {o : OnchainOrder} {leaf : Option EscrowLeafName}
    (h : OcCtx.adoptedKind o leaf = some .release) :
    leaf = some .release ∨ o.settlementKind = some .release := by
  unfold OcCtx.adoptedKind at h
  split at h
  · rename_i hleaf
    exact .inl hleaf
  · exact .inr (Option.filter_eq_some_iff.mp h).1

/-- A change that is made with foresight leaves nothing out. -/
theorem OcChange.complete {c : OcCause} {o o' : OnchainOrder} {m m' : OcMeta}
    (h : OcChange c o m o' m') (hf : Foresight c o)
    (hopen : o.settlementKind ≠ none → o.state.trading = false) (ho : o.Complete) : o'.Complete := by
  have hundecided : o.state.trading = true → o.settlementKind = none := by
    intro htrading
    by_contra hk
    exact absurd (htrading.symm.trans (hopen hk)) (by decide)
  have hpinned : o.state ≠ .listed ∧ o.state ≠ .bonded ∧ o.state ≠ .cancelled →
      (given o.fundingOutpoint).isSome := fun hs => ho.pinned hs.1 hs.2.1 hs.2.2
  cases h with
  | bond sponsor info adminXonly address blocks hash expiresAt hlisted ha hx hclaim =>
    obtain ⟨hcustomer, hsponsor, hadmin, hblocks⟩ := hx
    have hkind : o.settlementKind = none := hundecided (by rw [hlisted]; rfl)
    refine ⟨fun hp => (ho.together hp).congr rfl, fun _ _ => ⟨given_isSome (hf.claims _ hclaim),
      ⟨hcustomer, given_isSome hsponsor, given_isSome hadmin⟩, given_isSome ha, ?_⟩, by simp, ?_,
      by simp, by simp, by simp⟩
    · rw [Option.filter_some, if_pos (by simpa using hblocks)]
      rfl
    · simp [pricedStates, hkind]
  | fund outpoint confirmations priceKrw feeSat hact hpaid =>
    obtain ⟨hbonded, hprice, hnow⟩ := hf.funds _ _ _ hact
    have hescrow := ho.claimed (by rw [hbonded]; decide) (by rw [hbonded]; decide)
    have hpriced : (nonzero (some priceKrw)).isSome ∧
        ((some (o.amountSat - feeSat)).filter (· ≠ 0)).isSome ∧ (nonzero (some c.now)).isSome := by
      rw [nonzero, nonzero, Option.filter_some, Option.filter_some, Option.filter_some,
        if_pos (by simpa using hprice), if_pos (by simpa using hpaid.ne'),
        if_pos (by simpa using hnow)]
      exact ⟨rfl, rfl, rfl⟩
    exact ⟨fun _ => ⟨hpriced.1, hpriced.2.1, hpriced.2.2⟩, fun _ _ => hescrow.congr rfl,
      fun _ _ _ => given_isSome (formatOutpoint_ne _),
      fun _ => ⟨hpriced.1, hpriced.2.1, hpriced.2.2⟩, by simp, by simp, by simp⟩
  | decide kind feeSat fold o₁ hmay heq hb =>
    subst heq
    have hkind : kind ≠ .release := OcCtx.mayDecide_release hmay
    have hcases := mayDecide_cases hmay
    refine ho.advance ?_ rfl rfl (fun _ => ?_) (fun hp => ?_) (fun _ => ⟨rfl, rfl⟩)
      (fun _ _ => rfl) (fun hs => ?_)
    · obtain ⟨-, hs⟩ | ⟨-, ⟨-, hs⟩ | ⟨-, hs | hs⟩⟩ := hcases <;> simp [hs]
    · cases fold with
      | some f => exact given_isSome (formatOutpoint_ne _)
      | none =>
        refine hpinned ?_
        obtain ⟨-, hs⟩ | ⟨-, ⟨hfold, -⟩ | ⟨-, hs | hs⟩⟩ := hcases
        · simp [hs]
        · cases hfold
        · simp [hs]
        · simp [hs]
    · -- a ruling is of an order that has its price
      obtain ⟨-, hs⟩ | ⟨hruling, -⟩ := hcases
      · exact ho.priced (.inl (by rw [hs]; decide))
      · simp [hruling, pricedStates, hkind] at hp
    · obtain ⟨hruling, hs'⟩ | ⟨hruling, -⟩ := hcases
      · simp [hruling, hs'] at hs
      · simp [hruling] at hs
  | presig psbt hs hk =>
    exact ho.advance (by simp [hs]) rfl rfl (fun _ => hpinned (by simp [hs]))
      (fun _ => ho.priced (.inl (by rw [hs]; decide))) (by simp) (by simp) (by simp)
  | account commitment hs hk =>
    exact ho.advance (by simp [hs]) rfl rfl (fun _ => hpinned (by simp [hs]))
      (fun _ => ho.priced (.inl (by rw [hs]; decide))) ho.refunding ho.ruled ho.settling
  | remit hs hk =>
    exact ho.advance (by simp [hs]) rfl rfl (fun _ => hpinned (by simp [hs]))
      (fun _ => ho.priced (.inl (by rw [hs]; decide))) (by simp) (by simp) (by simp)
  | dispute hs =>
    have hs : o.state = .remitted := hs.elim id hf.disputes
    have hk : o.settlementKind = none := hundecided (by rw [hs]; rfl)
    exact ho.advance (by simp [hs]) rfl rfl (fun _ => hpinned (by simp [hs]))
      (fun _ => ho.priced (.inl (by rw [hs]; decide))) (by simp) (by simp [hk]) (by simp)
  | objection hs hk =>
    exact ho.advance (by simp [hs]) rfl rfl (fun _ => hpinned (by simp [hs]))
      (fun _ => ho.priced (.inl (by rw [hs]; decide))) ho.refunding ho.ruled ho.settling
  | cancel =>
    exact ⟨fun hp => (ho.together hp).congr rfl, by simp, by simp,
      fun hp => (ho.priced (.inr (by simpa [pricedStates] using hp))).congr rfl, by simp, by simp,
      by simp⟩
  | reorg hact =>
    have hs := hf.reorgs hact
    have hk : o.settlementKind = none := hundecided (by obtain hs | hs := hs <;> rw [hs] <;> rfl)
    have hescrow := ho.claimed (by obtain hs | hs := hs <;> simp [hs])
      (by obtain hs | hs := hs <;> simp [hs])
    exact ⟨by simp [nonzero], fun _ _ => hescrow.congr rfl, by simp, by simp [pricedStates, hk],
      by simp, by simp, by simp⟩
  | cosign kind txid rawHex hk hcan hsender hdone =>
    have hs : o.state = .remitted ∨ o.state = .disputed ∨ (kind ≠ .release ∧ o.state = .refunding) := by
      cases kind <;> simp [canActOnSignRequest, signPurposeFor] at hcan ⊢ <;> tauto
    refine ho.advance ?_ rfl rfl (fun _ => hpinned ?_) (fun hp => ?_) (by simp) (by simp)
      (fun _ => ⟨rfl, given_isSome (hf.completes _ _ _ _ hdone)⟩)
    · obtain hs | hs | ⟨-, hs⟩ := hs <;> simp [hs]
    · obtain hs | hs | ⟨-, hs⟩ := hs <;> simp [hs]
    · obtain hs | hs | ⟨hne, hs⟩ := hs
      · exact ho.priced (.inl (by rw [hs]; decide))
      · exact ho.priced (.inl (by rw [hs]; decide))
      · simp [pricedStates, hne] at hp
  | adopt txid leaf kind settlingAt hk hact =>
    obtain ⟨htxid, hrelease, hl, hb, hc⟩ := hf.spends _ _ hact
    refine ho.advance ⟨hl, hc⟩ rfl rfl (fun _ => hpinned ⟨hl, hb, hc⟩) (fun hp => ?_) (by simp)
      (by simp) (fun _ => ⟨rfl, given_isSome htxid⟩)
    obtain rfl : kind = .release := by simpa [pricedStates] using hp
    exact (adoptedKind_release hk).elim hrelease fun hsettled => ho.priced (.inr hsettled)
  | sweep txid hact =>
    obtain ⟨-, -, hl, hb, hc⟩ := hf.spends _ _ hact
    exact ho.advance ⟨hl, hc⟩ rfl rfl (fun _ => hpinned ⟨hl, hb, hc⟩)
      (fun hp => ho.priced (.inr (by simpa [pricedStates] using hp))) (by simp) (by simp) (by simp)
  | confirmed kind hk hact =>
    have hs := hf.ends hact
    have hterminal : kind.terminal ≠ .refunding ∧ kind.terminal ≠ .disputed ∧
        kind.terminal ≠ .settling ∧ (kind.terminal ∈ pricedStates → kind = .release) := by
      cases kind <;> simp [SettlementKind.terminal, pricedStates]
    refine ho.advance (by simp [hs]) rfl rfl (fun _ => hpinned (by simp [hs])) (fun hp => ?_)
      (fun hr => absurd hr hterminal.1) (fun hd => absurd hd hterminal.2.1)
      (fun hset => absurd hset hterminal.2.2.1)
    refine ho.priced (.inr ?_)
    obtain hp | hp := hp
    · rw [hk, hterminal.2.2.2 hp]
    · exact hp
  | resolve kind hk hkind hs hres =>
    have hne : kind ≠ .release := by obtain rfl | rfl := hkind <;> decide
    refine ho.advance ?_ rfl rfl (fun _ => hpinned ?_) (fun hp => ?_)
      (fun hr => ⟨rfl, (ho.refunding hr).2⟩) (fun hd => ?_) (fun hset => ⟨rfl, (ho.settling hset).2⟩)
    · obtain hs | hs | hs := hs <;> simp [hs]
    · obtain hs | hs | hs := hs <;> simp [hs]
    · obtain hs | hs | hs := hs <;> simp [hs, pricedStates, hne] at hp
    · obtain hs | hs | hs := hs <;> simp [hs] at hd

/-! ## Runs -/

/-- A step in which no spend through the release leaf is seen of an order that has no price; what is
named is not empty, and the clock and the price are not zero. -/
structure Foreseen (env : OcEnv P) (w : OcWorld) (i : OcInput) : Prop where
  party : ∀ inv, i = .hook .accepted inv → inv.party ≠ ""
  clock : ∀ answers price, i = .judge answers price → w.now ≠ 0
  price : ∀ answers price row rest, i = .judge answers (some price) → w.polling = row :: rest →
    0 < price → ⌊row.order.amountSat / 100000000 * price + 1 / 2⌋ ≠ 0
  spend : ∀ answers price row rest facts txid leaf confirmed, i = .judge answers price →
    w.polling = row :: rest → gather env.lib row.order answers = .ok facts →
    facts.pinned = some (.spent txid leaf confirmed) →
      txid ≠ "" ∧ (leaf = some .release → (nonzero row.order.priceKrw).isSome)

/-- The price that is fixed is that of the feed. -/
theorem price_of_fund {order : OnchainOrder} {ctx : OnchainWatchContext} {outpoint : Outpoint} {n : ℕ}
    {k : ℤ} (h : decideOnchainAction order ctx = .fund outpoint n k) :
    ∃ price, ctx.btcPriceKrw = some price ∧ 0 < price ∧
      k = ⌊order.amountSat / 100000000 * price + 1 / 2⌋ := by
  obtain ⟨hs, -⟩ := fund_of_decide h
  rw [decideOnchainAction, hs] at h
  dsimp only at h
  unfold decideBonded at h
  split at h
  · cases h
  · cases h
  · cases h
  · dsimp only at h
    split at h <;> cases h
  · dsimp only at h
    split at h <;> cases h
  · dsimp only at h
    split at h
    · cases h
    · cases h
    · split at h
      · cases h
      · rename_i price hprice
        split at h
        · cases h
        · obtain ⟨hfeed, hpos⟩ := Option.filter_eq_some_iff.mp hprice
          exact ⟨price, hfeed, of_decide_eq_true hpos, (OnchainAction.fund.inj h).2.2.symm⟩

/-- A foreseen step makes its changes with foresight. -/
theorem Foreseen.foresight {env : OcEnv P} (htxid : ∀ tx id, env.lib.txid tx = .ok id → id ≠ "")
    {w : OcWorld} {i : OcInput} (hi : Foreseen env w i) (hw : (ocSystem env).Reachable w)
    {o : OnchainOrder} (ho : o.Complete) : Foresight (w.cause env i) o where
  claims := by
    rintro p (⟨event, price, -, rfl⟩ | ⟨inv, rfl, rfl⟩)
    · intro hempty
      have hhex := event.isHex64_pubkey
      rw [hempty] at hhex
      exact absurd hhex (by decide)
    · exact hi.party inv rfl
  funds := by
    intro outpoint n k hact
    obtain ⟨answers, price, row, rest, facts, r, rfl, hpoll, hrow, -, -, -, -, hact⟩ := hact.asked hw
    obtain ⟨hs, -⟩ := fund_of_decide hact.symm
    obtain ⟨feed, hfeed, hpos, rfl⟩ := price_of_fund hact.symm
    obtain ⟨rfl, -⟩ := Option.filter_eq_some_iff.mp hfeed
    refine ⟨hs, ?_, hi.clock _ _ rfl⟩
    rw [← hrow]
    exact hi.price _ _ _ _ rfl hpoll hpos
  reorgs hact := (reorg_of_decide hact.decided.choose_spec).1
  disputes hact := dispute_of_decide hact.decided.choose_spec
  ends hact := confirmed_of_decide hact.decided.choose_spec
  completes := by
    rintro m kind txid rawHex ⟨event, price, -, expected, signer, psbt, sig, leaf, -, -, -, -, hdone⟩
    obtain ⟨mine, sigs, -, hid⟩ := completeSettlement_ok hdone
    exact htxid _ txid hid
  spends := by
    intro txid leaf hact
    obtain ⟨answers, price, row, rest, facts, r, rfl, hpoll, rfl, -, -, -, hfacts, hact⟩ :=
      hact.asked hw
    obtain ⟨confirmed, hspent⟩ := observeSpend_of_decide hact.symm
    obtain ⟨hne, hrelease⟩ := hi.spend _ _ _ _ _ _ _ _ rfl hpoll hfacts hspent
    refine ⟨hne, fun hleaf => ho.together (hrelease hleaf), ?_⟩
    obtain hs | hs | hs | hs | hs | hs := pinned_of_observeSpend hact.symm <;> simp [hs]

theorem complete_of_fresh {r : OcRow} (h : r.Fresh) : r.order.Complete where
  together hp := by
    rw [h.blank.price.1] at hp
    cases hp
  claimed hs := absurd h.listed hs
  pinned hs := absurd h.listed hs
  priced := by simp [h.listed, h.undecided, pricedStates]
  refunding hs := by cases h.listed.symm.trans hs
  ruled hs := by cases h.listed.symm.trans hs
  settling hs := by cases h.listed.symm.trans hs

theorem OnchainOrder.Complete.restamp {o o' : OnchainOrder} {now : ℤ} (h : o'.Complete) :
    (o.restamp o' now).Complete :=
  ⟨fun hp => (h.together hp).congr rfl, fun hl hc => (h.claimed hl hc).congr rfl, h.pinned,
    fun hp => (h.priced hp).congr rfl, h.refunding, h.ruled, h.settling⟩

/-- In every run of foreseen steps, nothing that a state asks for is missing. -/
theorem complete_of_reachable {env : OcEnv P} (htxid : ∀ tx id, env.lib.txid tx = .ok id → id ≠ "")
    {w : OcWorld} (hw : (ocSystem env).ReachableBy (Foreseen env) w) {id : OrderId} {r : OcRow}
    (hr : getOc id w.db = some r) : r.order.Complete := by
  suffices hall : ∀ id r, getOc id w.db = some r → r.order.Complete from hall id r hr
  refine TransitionSystem.invariant_by (M := ocSystem env)
    (P := fun w => ∀ id r, getOc id w.db = some r → r.order.Complete) ?_ ?_ hw
  · rintro _ ⟨now, rfl⟩ id r hr
    exact absurd hr (by simp [OcWorld.init, OcWorld.emptyDb, getOc])
  · intro w i w' hreach ih hi h id r' hr'
    obtain ⟨r, hr, hrow⟩ | hfresh := (step_next h).back hr'
    · have hcomplete := ih id r hr
      cases hrow with
      | noted ho => exact ho ▸ hcomplete
      | changed o' hchange hlegal ho hv =>
        rw [ho]
        exact (hchange.complete (hi.foresight htxid hreach.reachable hcomplete)
          (shut_of_reachable hreach.reachable hr).decided hcomplete).restamp
    · exact complete_of_fresh hfresh

/-- **What is published is complete as long as no release is seen of an order without a price.**  In
every run of foreseen steps, `onchainOrderIssues` finds nothing in any order. -/
theorem published_complete (env : OcEnv P) (htxid : ∀ tx id, env.lib.txid tx = .ok id → id ≠ "")
    (w : OcWorld) (id : OrderId) (r : OcRow) (hw : (ocSystem env).ReachableBy (Foreseen env) w)
    (hr : getOc id w.db = some r) : onchainOrderIssues r.order = [] :=
  issues_of_complete (complete_of_reachable htxid hw hr)

/-! ### A release of an order without a price -/

/-- A sale with a reserve, which is claimed; the funding confirms when the price has fallen, and the
order is folded. -/
def foldedSale : List OcInput :=
  [.refreshFees ⟨10, 5⟩,
    .request .designatedOrderRequest ⟨"e1", refundKeys.customer, refundKeys_customer, 0,
      [["a", "38383:daemon:trade-1"], ["expiration", "3600"]], .payload ⟨none, none, none, none,
        some ⟨50000, refundKeys.customer, some 48000, sampleSingle.address.getD "",
          refundKeys.sponsor⟩⟩⟩ (some 100000000),
    .request .claim ⟨"e2", refundKeys.sponsor, refundKeys_sponsor, 0,
      [["a", "38383:daemon:trade-1"], ["sponsor-xonly", refundKeys.sponsor]],
      .payload ⟨none, sampleSingle.address, some 2, none, none⟩⟩ none,
    .poll, .judge tradeAnswers (some 90000000)]

/-- The two parties spend the funding through the release leaf. -/
def releaseAnswers : ChainAnswers :=
  { tradeAnswers with
    utxos := .known []
    outspend := .known (.spent refundTxid true (some ["00",
      "20774ae7f858a9411e5ef4246b70c65aac5649980be5c17891bbec17895da008cbad20421f5fc9a2" ++
        "1065445c96fdb91c0c1e2f2431741c72713b4b99ddcb316f31e9fcac",
      "c0"]))
    settlementTx := .found true (some 100) }

/-- The explorer does not answer on the spend, and the release has one confirmation. -/
def foldedAnswers : ChainAnswers := { releaseAnswers with outspend := .unknown "HTTP 503" }

/-- The sale is claimed; then it is folded, and its two parties release the funding. -/
theorem folded_run : ((ocSystem tradeEnv).run (OcWorld.init 100) (foldedSale.take 3)).any (fun w =>
    (getOc "trade-1" w.db).any (fun r => r.order.state = .bonded) &&
      ((ocSystem tradeEnv).run w (foldedSale.drop 3 ++
        [.poll, .judge releaseAnswers none, .poll, .judge foldedAnswers none])).any fun w' =>
          (getOc "trade-1" w'.db).any fun r => r.order.state = .released &&
            onchainOrderIssues r.order = ["price-krw", "payout-sat", "funded-at"]) = true := by
  unfold tradeEnv tradeLib sampleLib
  rw [samplePayment_eq, sampleSingle_eq]
  decide +kernel

/-- The folded order follows them to `released`, and what a released order has to say is missing. -/
theorem released_without_price : ∃ (w : OcWorld) (r : OcRow), (ocSystem tradeEnv).Reachable w ∧
    getOc "trade-1" w.db = some r ∧ r.order.state = .released ∧
    onchainOrderIssues r.order = ["price-krw", "payout-sat", "funded-at"] := by
  have hrun := folded_run
  simp only [Option.any_eq_true, Bool.and_eq_true, decide_eq_true_eq] at hrun
  obtain ⟨w, hw, -, w', hw', r, hr, hs, hissues⟩ := hrun
  have hreach : (ocSystem tradeEnv).Reachable w := TransitionSystem.Reachable.run (.init ⟨100, rfl⟩) hw
  exact ⟨w', r, hreach.run hw', hr, hs, hissues⟩

/-- An input that neither is a hook nor has answers of the explorer is foreseen. -/
theorem foreseen_quiet {env : OcEnv String} {i : OcInput} (hhook : ∀ call inv, i ≠ .hook call inv)
    (hjudge : ∀ answers price, i ≠ .judge answers price) (w : OcWorld) : Foreseen env w i :=
  ⟨fun _ h => absurd h (hhook _ _), fun _ _ h => absurd h (hjudge _ _),
    fun _ _ _ _ h => absurd h (hjudge _ _), fun _ _ _ _ _ _ _ _ h => absurd h (hjudge _ _)⟩

/-- The sale that is funded at a price and then swept. -/
theorem sweep_run : ((ocSystem tradeEnv).run (OcWorld.init 100) (tradeInputs.take 4)).any (fun a =>
    decide (a.now ≠ 0) && (a.polling.head?.any fun p => p.order.amountSat = 50000) &&
    (a.step tradeEnv (.judge tradeAnswers (some 100000000))).any fun b =>
      (b.step tradeEnv .poll).any fun c => decide (c.now ≠ 0) &&
        (c.polling.head?.any fun q => (nonzero q.order.priceKrw).isSome) &&
        (c.step tradeEnv (.judge sweepAnswers none)).any fun w =>
          (getOc "trade-1" w.db).any fun r => r.order.state = .swept) = true := by
  unfold tradeEnv tradeLib sampleLib
  rw [samplePayment_eq, sampleSingle_eq]
  decide +kernel

/-- The price of the feed is one that the amount does not round to nothing, and no spend is seen. -/
theorem foreseen_fund {w : OcWorld} {p : OcRow} (hnow : w.now ≠ 0) (hp : w.polling.head? = some p)
    (hamount : p.order.amountSat = 50000) :
    Foreseen tradeEnv w (.judge tradeAnswers (some 100000000)) := by
  refine ⟨fun _ h => (by cases h), fun _ _ _ => hnow, ?_, ?_⟩
  · intro answers price row rest hi hpoll _
    obtain ⟨-, hfeed⟩ := OcInput.judge.inj hi
    obtain rfl := Option.some.inj hfeed
    rw [hpoll] at hp
    obtain rfl := Option.some.inj hp
    rw [hamount]
    decide +kernel
  · intro answers price row rest facts txid leaf confirmed hi _ hfacts hpinned
    obtain ⟨rfl, -⟩ := OcInput.judge.inj hi
    obtain ⟨witness, -, hspent, -⟩ := spent_of_gather ((gather_ok hfacts).2 _ hpinned)
    cases hspent

/-- The price has been fixed when the sweep is seen. -/
theorem foreseen_sweep {w : OcWorld} {p : OcRow} (hnow : w.now ≠ 0) (hp : w.polling.head? = some p)
    (hprice : (nonzero p.order.priceKrw).isSome = true) :
    Foreseen tradeEnv w (.judge sweepAnswers none) := by
  refine ⟨fun _ h => (by cases h), fun _ _ _ => hnow, fun _ _ _ _ h => (by cases h), ?_⟩
  intro answers price row rest facts txid leaf confirmed hi hpoll hfacts hpinned
  obtain ⟨rfl, -⟩ := OcInput.judge.inj hi
  obtain ⟨witness, -, hspent, -⟩ := spent_of_gather ((gather_ok hfacts).2 _ hpinned)
  obtain ⟨rfl, -, -⟩ := SpendInfo.spent.inj (Query.known.inj hspent)
  rw [hpoll] at hp
  obtain rfl := Option.some.inj hp
  exact ⟨(by decide), fun _ => hprice⟩

/-- The sale that is funded and swept says all that it has to. -/
theorem published_complete_sale : ∃ (w : OcWorld) (r : OcRow),
    (ocSystem tradeEnv).ReachableBy (Foreseen tradeEnv) w ∧
    getOc "trade-1" w.db = some r ∧ r.order.state = .swept ∧ onchainOrderIssues r.order = [] := by
  have hrun := sweep_run
  simp only [Option.any_eq_true, Bool.and_eq_true, decide_eq_true_eq] at hrun
  obtain ⟨a, ha, ⟨hnow, p, hp, hamount⟩, b, hb, c, hc, ⟨hnow', q, hq, hprice⟩, w, hw, r, hr, hs⟩ := hrun
  have hclaimed : (ocSystem tradeEnv).ReachableBy (Foreseen tradeEnv) a :=
    TransitionSystem.ReachableBy.run (.init ⟨100, rfl⟩) (fun i hi w => foreseen_quiet
      (by rintro call inv rfl; simp [tradeInputs] at hi)
      (by rintro answers price rfl; simp [tradeInputs] at hi) w) ha
  have hfunded := hclaimed.step (foreseen_fund hnow hp hamount) hb
  have hquiet : Foreseen tradeEnv b .poll :=
    foreseen_quiet (fun _ _ h => (by cases h)) (fun _ _ h => (by cases h)) b
  have hpolled := hfunded.step hquiet hc
  have hreach := hpolled.step (foreseen_sweep hnow' hq hprice) hw
  have htxid : ∀ tx id, tradeEnv.lib.txid tx = .ok id → id ≠ "" := by
    intro tx id hid
    have hid : sampleLib.txid tx = .ok id := hid
    dsimp only [sampleLib] at hid
    split at hid
    · obtain rfl := Except.ok.inj hid
      decide
    · cases hid
  exact ⟨w, r, hreach, hr, hs, published_complete tradeEnv htxid w "trade-1" r hreach hr⟩

end LnPay
