/-
# The option window (`shared/src/onchain/timing.ts`, `daemon/src/onchain/handlers.ts`)

From the funding on, the price is fixed and each party may still walk away.  Three
deadlines bound the time for that:

  funded ─15 min→ presignature ─60 min→ account ─30 min→ remittance

A request is held against its deadline by the time at which it was made, while the
next window opens at the time at which it is handled.  The sum of the windows,
`MAX_OPTION_WINDOW_SEC`, is a bound as long as the two fall on the same side of
the deadline.
-/
import LnPay.OcFinality

namespace LnPay

variable {P : Type}

/-- `MAX_OPTION_WINDOW_SEC`. -/
def maxOptionWindowSec : ℤ := presignWindowSec + accountWindowSec + krwWindowSec

/-- A request of the one whose turn it is has been made before its deadline and is handled after it. -/
def TakenLate (w : OcWorld) (i : OcInput) : Prop :=
  ∃ turn event price r, i = .request (OcTurn.action turn) event price ∧
    (given (extractOrderId event.tags)).bind (getOc · w.db) = some r ∧
    r.order.awaits event.pubkey turn ∧
    isPast (r.order.turnDeadline turn) (min event.createdAt w.now) = false ∧
    isPast (r.order.turnDeadline turn) w.now = true

/-- The deadline for the money is within the option window. -/
def OnchainOrder.WithinWindow (o : OnchainOrder) : Prop :=
  ∀ d, o.krwDeadline = some d → ∃ t, o.fundedAt = some t ∧ d ≤ t + maxOptionWindowSec

/-- A step that makes an order `remitted` comes within the option window. -/
def RemitsWithin (env : OcEnv P) (w : OcWorld) (i : OcInput) : Prop :=
  ∀ w', w.step env i = some w' → ∀ id r r', getOc id w.db = some r → getOc id w'.db = some r' →
    r.order.state ≠ .remitted → r'.order.state = .remitted →
      ∃ t, r'.order.fundedAt = some t ∧ w.now ≤ t + maxOptionWindowSec

theorem isPast_eq_false {deadline : Option ℤ} {now : ℤ} :
    isPast deadline now = false ↔ ∃ d, deadline = some d ∧ now < d := by
  cases deadline with
  | none => simp [isPast]
  | some d => simp [isPast]

/-! ## The times of a trade -/

/-- The states before the money is claimed to be sent. -/
def OnchainState.opening : OnchainState → Bool
  | .listed | .bonded | .funded | .presigned => true
  | _ => false

example : OnchainState.remitted.opening = false := by decide +kernel

/-- What is known of the times of an order none of whose requests has been taken late. -/
structure OnchainOrder.Timed (o : OnchainOrder) : Prop where
  unfunded : o.state = .listed ∨ o.state = .bonded → o.accountSentAt = none ∧ o.krwDeadline = none
  funded : o.state = .funded →
    ∃ t, o.fundedAt = some t ∧ o.presignDeadline = some (t + presignWindowSec)
  presigned : o.state = .presigned → ∃ t d, o.fundedAt = some t ∧ o.accountDeadline = some d ∧
    d ≤ t + presignWindowSec + accountWindowSec
  sent : ∀ a, o.accountSentAt = some a →
    ∃ t, o.fundedAt = some t ∧ a + krwWindowSec ≤ t + maxOptionWindowSec
  within : o.WithinWindow

section Timed

variable {c : OcCause} {o o' : OnchainOrder} {m m' : OcMeta}

/-- Past the opening only the times themselves count. -/
theorem OnchainOrder.Timed.past (h : o.Timed) (hs : o'.state.opening = false)
    (hsent : o'.accountSentAt = o.accountSentAt) (hkrw : o'.krwDeadline = o.krwDeadline)
    (hfunded : o'.fundedAt = o.fundedAt) : o'.Timed where
  unfunded hearly := by
    obtain hearly | hearly := hearly <;> rw [hearly] at hs <;> exact absurd hs (by decide)
  funded hearly := by
    rw [hearly] at hs
    exact absurd hs (by decide)
  presigned hearly := by
    rw [hearly] at hs
    exact absurd hs (by decide)
  sent a ha := by
    rw [hfunded]
    exact h.sent a (hsent.symm.trans ha)
  within d hd := by
    rw [hfunded]
    exact h.within d (hkrw.symm.trans hd)

/-- The deadline of the account, as it is read. -/
theorem OnchainOrder.Timed.account_lt {now : ℤ} (h : o.Timed) (hs : o.state = .presigned)
    (hin : isPast o.accountDeadlineOf now = false) :
    ∃ t, o.fundedAt = some t ∧ now + krwWindowSec ≤ t + maxOptionWindowSec := by
  obtain ⟨t, d, ht, hd, hle⟩ := h.presigned hs
  obtain ⟨d', hd', hlt⟩ := isPast_eq_false.mp hin
  rw [OnchainOrder.accountDeadlineOf, hd, Option.some_or] at hd'
  obtain rfl := Option.some.inj hd'
  refine ⟨t, ht, ?_⟩
  rw [maxOptionWindowSec]
  omega

/-- The deadline for the money, as it is read. -/
theorem OnchainOrder.Timed.krw_lt {now : ℤ} (h : o.Timed) (hin : isPast o.krwDeadlineOf now = false) :
    ∃ t, o.fundedAt = some t ∧ now ≤ t + maxOptionWindowSec := by
  obtain ⟨d, hd, hlt⟩ := isPast_eq_false.mp hin
  rw [OnchainOrder.krwDeadlineOf, Option.or_eq_some_iff] at hd
  obtain hd | ⟨-, hd⟩ := hd
  · obtain ⟨t, ht, hle⟩ := h.within d (Option.filter_eq_some_iff.mp hd).1
    exact ⟨t, ht, by omega⟩
  · obtain ⟨a, ha, rfl⟩ := Option.map_eq_some_iff.mp hd
    obtain ⟨t, ht, hle⟩ := h.sent a (Option.filter_eq_some_iff.mp ha).1
    exact ⟨t, ht, by omega⟩

/-- **A change keeps the times** when no request is taken late. -/
theorem OcChange.timed (h : OcChange c o m o' m')
    (hin : ∀ o turn, c.takes o turn → isPast (o.turnDeadline turn) c.now = false)
    (hacts : ∀ o a, c.acts o a → ∃ ctx, decideOnchainAction o ctx = a) (ho : o.Timed) : o'.Timed := by
  cases h with
  | bond sponsor info adminXonly address blocks hash expiresAt hs ha =>
    obtain ⟨hsent, hkrw⟩ := ho.unfunded (.inl hs)
    exact ⟨fun _ => ⟨hsent, hkrw⟩, (fun h => by cases h), (fun h => by cases h), ho.sent, ho.within⟩
  | fund outpoint confirmations priceKrw releaseFeeSat hact =>
    obtain ⟨ctx, hdecide⟩ := hacts _ _ hact
    obtain ⟨hsent, hkrw⟩ := ho.unfunded (.inr (fund_of_decide hdecide).1)
    refine ⟨fun h => ?_, fun _ => ⟨c.now, rfl, rfl⟩, (fun h => by cases h), fun a ha => ?_,
      fun d hd => ?_⟩
    · obtain h | h := h <;> cases h
    · cases hsent.symm.trans ha
    · cases hkrw.symm.trans hd
  | decide kind feeSat fold o₁ hmay hdef hb =>
    subst hdef
    have hruling := (mayDecide_state hmay).2
    refine ho.past ?_ rfl rfl rfl
    dsimp only
    split
    · rename_i hr
      rw [hruling hr]
      rfl
    · rfl
  | presig psbt hs hk ht =>
    -- in time is before the deadline that the funding has set
    obtain ⟨t, hfunded, hdeadline⟩ := ho.funded hs
    obtain ⟨d, hd, hlt⟩ := isPast_eq_false.mp (hin _ _ ht)
    change o.presignDeadlineOf = some d at hd
    rw [OnchainOrder.presignDeadlineOf, hdeadline, Option.some_or] at hd
    obtain rfl := Option.some.inj hd
    refine ⟨fun h => ?_, (fun h => by cases h), fun _ => ⟨t, _, hfunded, rfl, ?_⟩, ho.sent,
      ho.within⟩
    · obtain h | h := h <;> cases h
    · omega
  | account commitment hs hk ha ht =>
    -- the deadline for the money counts from now, and now is before the deadline for the account
    obtain ⟨t, hfunded, hle⟩ := ho.account_lt hs (hin _ _ ht)
    refine ⟨fun hearly => ?_, fun hearly => ?_, fun _ => ho.presigned hs, fun a ha => ?_,
      fun d hd => ?_⟩
    · obtain hearly | hearly := hearly <;> cases hs.symm.trans hearly
    · cases hs.symm.trans hearly
    · obtain rfl := Option.some.inj ha
      exact ⟨t, hfunded, hle⟩
    · obtain rfl := Option.some.inj hd
      exact ⟨t, hfunded, hle⟩
  | objection hs hk => exact ⟨ho.unfunded, ho.funded, ho.presigned, ho.sent, ho.within⟩
  | reorg hact =>
    -- all times go with the funding
    exact ⟨fun _ => ⟨rfl, rfl⟩, (fun h => by cases h), (fun h => by cases h), (fun _ h => by cases h),
      fun _ h => by cases h⟩
  | confirmed kind hk hact => exact ho.past (by cases kind <;> rfl) rfl rfl rfl
  | resolve kind hk hkind hs hres =>
    refine ho.past ?_ rfl rfl rfl
    obtain hs | hs | hs := hs
    all_goals
      change o.state.opening = false
      rw [hs]
      rfl
  | remit | dispute | cancel | cosign | adopt | sweep => exact ho.past rfl rfl rfl rfl

/-- The money is claimed to be sent within the window. -/
theorem OcChange.remits_within (h : OcChange c o m o' m')
    (hin : ∀ o turn, c.takes o turn → isPast (o.turnDeadline turn) c.now = false) (ho : o.Timed)
    (hne : o.state ≠ .remitted) (hs' : o'.state = .remitted) :
    ∃ t, o'.fundedAt = some t ∧ c.now ≤ t + maxOptionWindowSec := by
  cases h with
  | remit hs hk ht => exact ho.krw_lt (hin _ _ ht)
  | decide kind feeSat fold o₁ hmay hdef hb =>
    subst hdef
    dsimp only at hs'
    split at hs'
    · exact absurd hs' hne
    · cases hs'
  | account | objection | resolve => exact absurd hs' hne
  | confirmed kind => cases kind <;> cases hs'
  | bond | fund | presig | dispute | cancel | reorg | cosign | adopt | sweep => cases hs'

end Timed

/-! ## In every run -/

variable {env : OcEnv P} {w : OcWorld} {i : OcInput}

/-- A turn that is not taken late is taken in time. -/
theorem takes_in_time (hnot : ¬ TakenLate w i) {o : OnchainOrder} {turn : OcTurn}
    (h : (w.cause env i).takes o turn) :
    isPast (o.turnDeadline turn) (w.cause env i).now = false := by
  obtain ⟨event, price, r, rfl, hr, rfl, hawaits, hmade⟩ := h
  exact Bool.eq_false_iff.mpr fun hpast =>
    hnot ⟨turn, event, price, r, rfl, hr, hawaits, hmade, hpast⟩

theorem timed_of_reachable (hw : (ocSystem env).ReachableBy (fun w i => ¬ TakenLate w i) w)
    {id : OrderId} {r : OcRow} (hr : getOc id w.db = some r) : r.order.Timed := by
  refine rows_invariant_by (Q := fun r => r.order.Timed) (fun r hfr => ?_)
    (fun w i r r' hok hstep hr => ?_) hw hr
  · obtain ⟨hsent, hkrw⟩ := hfr.untimed
    refine ⟨fun _ => ⟨hsent, hkrw⟩, fun hs => ?_, fun hs => ?_, fun a ha => ?_, fun d hd => ?_⟩
    · cases hfr.listed.symm.trans hs
    · cases hfr.listed.symm.trans hs
    · cases hsent.symm.trans ha
    · cases hkrw.symm.trans hd
  · cases hstep with
    | noted ho hm hv =>
      rw [ho]
      exact hr
    | changed o' hchange hlegal ho hv =>
      have htimed : o'.Timed := hchange.timed (fun _ _ ht => takes_in_time hok ht)
        (fun _ _ ha => ha.decided) hr
      rw [ho]
      exact ⟨htimed.unfunded, htimed.funded, htimed.presigned, htimed.sent, htimed.within⟩

/-- **The option window is bounded** in every run in which no request made before its deadline is
handled after it: the deadline for the money is within the window in every state, and no order
becomes `remitted` later. -/
theorem option_window_bounded (env : OcEnv P) (w : OcWorld)
    (hw : (ocSystem env).ReachableBy (fun w i => ¬ TakenLate w i) w) :
    (∀ id r, getOc id w.db = some r → r.order.WithinWindow) ∧
      ∀ i, ¬ TakenLate w i → RemitsWithin env w i := by
  refine ⟨fun id r hr => (timed_of_reachable hw hr).within, fun i hi w' hs id r r' hr hr' hne hs' => ?_⟩
  have hnext : OcNext (w.cause env i) w.db w'.db := step_next hs
  obtain ⟨r₁, hr₁, hstep⟩ := hnext.row hr
  obtain rfl := Option.some.inj (hr'.symm.trans hr₁)
  cases hstep with
  | noted ho hm hv => exact absurd (ho ▸ hs') hne
  | changed o' hchange hlegal ho hv =>
    rw [ho] at hs' ⊢
    exact hchange.remits_within (fun _ _ ht => takes_in_time hi ht) (timed_of_reachable hw hr) hne hs'

/-! ## A trade in time, and one after an outage -/

/-- The PSBT of the release with the signature of the sponsor. -/
def releasePsbt : String :=
  "cHNidP8BAF4CAAAAAaurq6urq6urq6urq6urq6urq6urq6urq6urq6urq6urAQAAAAD/////Af7BAAAA" ++
    "AAAAIlEgMRTuBgFcKO/HC4Z7aqPSqq+t830HwaEIc9AzAfQfALwAAAAAAAEBK1DDAAAAAAAAIlEgJHXe" ++
    "F8IjvmNwsEGfvbv8Fi6OWauH5DuS9vplQjwzNNhBFEIfX8miEGVEXJb9uRwMHi8kMXQccnE7S5ndyzFv" ++
    "Men8vfhFAQ6NSik40yWZOzm5Ip9f5oa6Md9IOaeKECXdP19AFVYru6B0fxkET9wHc1f7LlqyF9564ma4" ++
    "n37CGkXqi+rJ04hvlJeVwrozVBdEAIjplljQqXg4aw16yCvbEDIEAAAA"

/-- The leaf of the release: both parties sign. -/
def releaseLeaf : Bytes :=
  bytesOf ("20774ae7f858a9411e5ef4246b70c65aac5649980be5c17891bbec17895da008cbad20421f5fc9a2" ++
    "1065445c96fdb91c0c1e2f2431741c72713b4b99ddcb316f31e9fcac")

/-- Its hash. -/
def releaseLeafHash : Bytes :=
  bytesOf "bdf845010e8d4a2938d325993b39b9229f5fe686ba31df4839a78a1025dd3f5f"

/-- The signature of the sponsor. -/
def releaseSig : Bytes :=
  bytesOf ("15562bbba0747f19044fdc077357fb2e5ab217de7ae266b89f7ec21a45ea8beac9d3886f949795c2" ++
    "ba335417440088e99658d0a978386b0d7ac82bdb10320400")

/-- The digest that is signed. -/
def releaseSighash : Bytes :=
  bytesOf "a3041cb88462975ddb309657dbea54596f87bf02c3634e3846f0b27465b4e24b"

theorem releaseLeaf_eq : releaseLeaf = twoSigBytes customerBytes sponsorBytes :=
  (bytesOf_append _ _).trans (by decide +kernel)

theorem releaseLeafHash_eq :
    releaseLeafHash = beBytes 32 0xbdf845010e8d4a2938d325993b39b9229f5fe686ba31df4839a78a1025dd3f5f :=
  (bytesOf_ofList _).trans (by decide +kernel)

theorem releaseSig_eq : releaseSig =
    beBytes 40 0x15562bbba0747f19044fdc077357fb2e5ab217de7ae266b89f7ec21a45ea8beac9d3886f949795c2 ++
      beBytes 24 0xba335417440088e99658d0a978386b0d7ac82bdb10320400 :=
  (bytesOf_append _ _).trans (by decide +kernel)

theorem releaseSighash_eq :
    releaseSighash = beBytes 32 0xa3041cb88462975ddb309657dbea54596f87bf02c3634e3846f0b27465b4e24b :=
  (bytesOf_ofList _).trans (by decide +kernel)

/-- The transaction in the PSBT. -/
def releaseTx : BtcTransaction where
  version := 2
  lockTime := 0
  inputs := [{
    txid := some tradeTxid
    index := some 1
    sequence := sequenceFinal
    witnessUtxo := some (samplePayment.script, 50000)
    tapLeafScript := []
    tapInternalKey := none
    tapMerkleRoot := none
    tapScriptSig := [((refundKeys.sponsor, releaseLeafHash), releaseSig)] }]
  outputs := [⟨some sampleSingle.script, some 49662⟩]

/-- The library on the release. -/
def releaseLib : BtcSigner String :=
  { tradeLib with
    fromPsbtBase64 := fun psbt =>
      if psbt = releasePsbt then .ok releaseTx else tradeLib.fromPsbtBase64 psbt
    txid := fun tx =>
      if tx.outputs = releaseTx.outputs then
        .ok "a31b719b131bc2f62cf0c37ca98f7a0dd49be6366107045fbbc4c7a3ab93de89"
      else tradeLib.txid tx
    tapLeafHash := fun script =>
      if script = releaseLeaf then releaseLeafHash else tradeLib.tapLeafHash script
    sighash := fun tx script valueSat leaf =>
      if tx.outputs = releaseTx.outputs ∧ leaf = releaseLeaf then .ok releaseSighash
      else tradeLib.sighash tx script valueSat leaf
    schnorrVerify := fun sig msg key => .ok (sig = releaseSig ∧ msg = releaseSighash ∧
      key = bytesOf refundKeys.sponsor) }

/-- The daemon of the trade. -/
def releaseEnv : OcEnv String := { tradeEnv with lib := releaseLib }

/-- The sponsor presigns at the given time. -/
def tradePresig (createdAt : ℤ) : OcInput :=
  .request .presig ⟨"e3", refundKeys.sponsor, refundKeys_sponsor, createdAt,
    [["a", "38383:daemon:trade-1"]], .payload ⟨none, none, none, some releasePsbt, none⟩⟩ none

/-- The customer sends the account at the given time. -/
def tradeAccount (createdAt : ℤ) : OcInput :=
  .request .accountInfo ⟨"e4", refundKeys.customer, refundKeys_customer, createdAt,
    [["a", "38383:daemon:trade-1"]], .undecryptable⟩ none

/-- A request that is handled when it is made is not taken late. -/
theorem not_takenLate_of_now {action : OcAction} {event : OcEvent} {price : Option ℚ}
    (h : w.now ≤ event.createdAt) : ¬ TakenLate w (.request action event price) := by
  rintro ⟨turn, event', price', r, hi, -, -, hmade, hpast⟩
  obtain ⟨-, rfl, -⟩ := OcInput.request.inj hi
  rw [min_eq_right h, hpast] at hmade
  exact Bool.true_eq_false_eq_False hmade

/-- The inputs up to the funding take no turn. -/
theorem not_takenLate_of_trade : ∀ i ∈ tradeInputs ++ [.tick 100], ∀ w, ¬ TakenLate w i := by
  rintro i hi w ⟨turn, event, price, r, rfl, -⟩
  simp only [tradeInputs, List.cons_append, List.nil_append, List.mem_cons, List.not_mem_nil,
    reduceCtorEq, OcInput.request.injEq, or_false, false_or] at hi
  obtain ⟨h, -⟩ | ⟨h, -⟩ := hi <;> cases turn <;> cases h

/-- The sponsor presigns at once, but the daemon is down until long after the deadline; then the
customer sends the account. -/
def outageInputs : List OcInput :=
  tradeInputs ++ [.tick 5000, .restart, tradePresig 0, tradeAccount 5000, .tick 1700]

/-- The sponsor claims to have sent the money, before the deadline on record. -/
def outageRemit : OcInput :=
  .request .remitRequest ⟨"e5", refundKeys.sponsor, refundKeys_sponsor, 6700,
    [["a", "38383:daemon:trade-1"]], .undecryptable⟩ none

/-- The two trades: with the requests handled at once, and after the outage. -/
theorem release_runs :
    (((ocSystem releaseEnv).run (OcWorld.init 0) (tradeInputs ++ [.tick 100])).bind fun w =>
      (w.step releaseEnv (tradePresig 100)).bind fun w₁ =>
        (w₁.step releaseEnv (tradeAccount 100)).bind fun w₂ => (getOc "trade-1" w₂.db).map fun r =>
          (w.now, w₁.now, r.order.krwDeadline)) = some (100, 100, some 1900) ∧
    (((ocSystem releaseEnv).run (OcWorld.init 0) outageInputs).bind fun w =>
      (getOc "trade-1" w.db).bind fun r => (w.step releaseEnv outageRemit).bind fun w' =>
        (getOc "trade-1" w'.db).map fun r' => (w.now, r.order.state, r.order.fundedAt,
          r.order.krwDeadline, r'.order.state, r'.order.fundedAt)) =
      some (6700, .presigned, some 0, some 6800, .remitted, some 0) := by
  unfold releaseEnv releaseLib releaseTx tradeEnv tradeLib sampleLib
  rw [samplePayment_eq, sampleSingle_eq, releaseLeaf_eq, releaseLeafHash_eq, releaseSig_eq,
    releaseSighash_eq]
  decide +kernel

/-- A trade whose requests are handled at once stays within the window. -/
theorem option_window_bounded_trade :
    ∃ w r, (ocSystem releaseEnv).ReachableBy (fun w i => ¬ TakenLate w i) w ∧
      getOc "trade-1" w.db = some r ∧ r.order.krwDeadline = some 1900 ∧ r.order.WithinWindow := by
  have hrun := release_runs.1
  obtain ⟨w, hw, hrun⟩ := Option.bind_eq_some_iff.mp hrun
  obtain ⟨w₁, hs₁, hrun⟩ := Option.bind_eq_some_iff.mp hrun
  obtain ⟨w₂, hs₂, hrow⟩ := Option.bind_eq_some_iff.mp hrun
  obtain ⟨r, hr, hvalues⟩ := Option.map_eq_some_iff.mp hrow
  simp only [Prod.mk.injEq] at hvalues
  obtain ⟨hnow, hnow₁, hkrw⟩ := hvalues
  have hfunded : (ocSystem releaseEnv).ReachableBy (fun w i => ¬ TakenLate w i) w :=
    TransitionSystem.ReachableBy.run (.init ⟨0, rfl⟩) not_takenLate_of_trade hw
  have hpresigned := hfunded.step (not_takenLate_of_now (by rw [hnow])) hs₁
  have hsent := hpresigned.step (not_takenLate_of_now (by rw [hnow₁])) hs₂
  exact ⟨w₂, r, hsent, hr, hkrw, (option_window_bounded releaseEnv w₂ hsent).1 "trade-1" r hr⟩

/-- **A presignature that is taken late moves the window**: the deadline for the money is set to 6800
seconds after the funding, and the order becomes `remitted` after 6700, where the window is 6300. -/
theorem window_exceeded_after_outage :
    ∃ w r, (ocSystem releaseEnv).run (OcWorld.init 0) outageInputs = some w ∧
      (ocSystem releaseEnv).Reachable w ∧ getOc "trade-1" w.db = some r ∧
      ¬ r.order.WithinWindow ∧ ¬ RemitsWithin releaseEnv w outageRemit := by
  have hrun := release_runs.2
  obtain ⟨w, hw, hrow⟩ := Option.bind_eq_some_iff.mp hrun
  obtain ⟨r, hr, hstep⟩ := Option.bind_eq_some_iff.mp hrow
  obtain ⟨w', hs, hrow'⟩ := Option.bind_eq_some_iff.mp hstep
  obtain ⟨r', hr', hvalues⟩ := Option.map_eq_some_iff.mp hrow'
  simp only [Prod.mk.injEq] at hvalues
  obtain ⟨hnow, hstate, hfunded, hkrw, hstate', hfunded'⟩ := hvalues
  refine ⟨w, r, hw, reachable_of_run hw, hr, fun hwithin => ?_, fun hremits => ?_⟩
  · obtain ⟨t, ht, hle⟩ := hwithin 6800 hkrw
    obtain rfl := Option.some.inj (hfunded.symm.trans ht)
    exact absurd hle (by decide)
  · obtain ⟨t, ht, hle⟩ := hremits w' hs "trade-1" r r' hr hr' (by rw [hstate]; decide) hstate'
    obtain rfl := Option.some.inj (hfunded'.symm.trans ht)
    rw [hnow] at hle
    exact absurd hle (by decide)

end LnPay
