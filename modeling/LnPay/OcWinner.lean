/-
# The winner matches the leaf

An order ends as released, refunded or won only when a transaction with the id on
record has spent its pinned outpoint.  Which leaf it went through is known when the
transaction was seen on the chain.  When the daemon has completed it, the daemon
looks for its id only, and an id does not commit to the witness: the two parties can
spend the outpoint to the same output through the leaf of the release.

What a transaction is does not change, so that a reorganisation, or another spend in
its place, takes nothing of it back.
-/
import LnPay.OcCommands
import LnPay.Presignature

namespace LnPay

variable {P : Type}

/-! ## Transactions that spend an output -/

/-- The one input is this output, and the one leaf it can be spent through has this script. -/
def BtcTransaction.SpendsThrough (tx : BtcTransaction) (outpoint : Outpoint) (script : Bytes) :
    Prop :=
  ∃ input entry, tx.inputs = [input] ∧ input.txid = some outpoint.txid ∧
    input.index = some outpoint.vout ∧ input.tapLeafScript = [entry] ∧ entry.2.dropLast = script

/-- Signatures change neither. -/
theorem BtcTransaction.SpendsThrough.addSigs {tx : BtcTransaction} {outpoint : Outpoint}
    {script : Bytes} (h : tx.SpendsThrough outpoint script)
    (sigs : List ((String × Bytes) × Bytes)) : (tx.addSigs sigs).SpendsThrough outpoint script := by
  obtain ⟨input, entry, hinputs, htxid, hindex, hleaf, hscript⟩ := h
  refine ⟨{ input with tapScriptSig := input.tapScriptSig ++ sigs }, entry, ?_, htxid, hindex, hleaf,
    hscript⟩
  rw [BtcTransaction.addSigs, hinputs]
  rfl

/-- A settlement that is built spends the escrow's output through the leaf of its path. -/
theorem spendsThrough_of_build {lib : BtcSigner P} {p : BuildSettlementParams} {tx : BtcTransaction}
    (h : buildSettlementTx lib p = .ok tx) : ∃ leaf,
      p.descriptor.leaf (settlementLeafFor p.path) = .ok leaf ∧
        tx.SpendsThrough p.outpoint leaf.script := by
  simp only [buildSettlementTx, Except.bind_eq_ok_iff, throwUnless_eq_ok_iff] at h
  obtain ⟨-, -, -, -, dust, -, -, -, leaf, hleaf, -, hone, script, -, htx⟩ := h
  obtain ⟨entry, hentry⟩ := List.length_eq_one_iff.mp hone
  obtain rfl := Except.ok.inj htx
  refine ⟨leaf, hleaf, _, entry, rfl, rfl, rfl, hentry, ?_⟩
  have hmem : entry ∈ p.descriptor.tapLeafScripts.filter fun e => e.2.dropLast = leaf.script := by
    rw [hentry]
    exact List.mem_singleton.mpr rfl
  exact of_decide_eq_true (List.mem_filter.mp hmem).2

/-- A settlement that is completed is the one that was built, with signatures. -/
theorem completeSettlement_ok {ctx : OcCtx P} {row : OcRow} {release : Bool}
    {expected : BuildSettlementParams} {signerXonly rawHex txid : String} {sig leafScript : Bytes}
    (h : ctx.completeSettlement row release expected signerXonly sig leafScript =
      .ok (some (rawHex, txid))) :
    ∃ mine sigs, buildSettlementTx ctx.env.lib expected = .ok mine ∧
      ctx.env.lib.txid (mine.addSigs sigs) = .ok txid := by
  have hadd : ∀ {tx tx' : BtcTransaction} {script sig : Bytes} {key : String},
      addTapScriptSig ctx.env.lib tx script key sig = .ok tx' → ∃ sigs, tx' = tx.addSigs sigs := by
    intro tx tx' script sig key hadd
    unfold addTapScriptSig at hadd
    split at hadd
    · cases hadd
    · exact ⟨_, (Except.ok.inj hadd).symm⟩
  have hlast : ∀ {x : Except String (Option BtcTransaction)}
      {k : Option BtcTransaction → Except String (Option (String × String))},
      x >>= k = .ok (some (rawHex, txid)) → k none = .ok none →
      (∀ tx, k (some tx) = do
        let rawHex ← ctx.env.finalizedHex tx
        let txid ← ctx.env.lib.txid tx
        return some (rawHex, txid)) →
      ∃ tx, x = .ok (some tx) ∧ ctx.env.lib.txid tx = .ok txid := by
    intro x k hx hnone hsome
    obtain ⟨signed, hsigned, hrest⟩ := Except.bind_eq_ok_iff.mp hx
    cases signed with
    | none => cases hnone.symm.trans hrest
    | some tx =>
      rw [hsome] at hrest
      obtain ⟨raw, -, hrest⟩ := Except.bind_eq_ok_iff.mp hrest
      obtain ⟨txid', htxid, hrest⟩ := Except.bind_eq_ok_iff.mp hrest
      obtain ⟨-, rfl⟩ := Prod.mk.inj (Option.some.inj (Except.ok.inj hrest))
      exact ⟨tx, hsigned, htxid⟩
  unfold OcCtx.completeSettlement at h
  obtain ⟨mine, hmine, h⟩ := Except.bind_eq_ok_iff.mp h
  obtain ⟨tx, htx, h⟩ := Except.bind_eq_ok_iff.mp h
  obtain ⟨sigs, rfl⟩ := hadd htx
  have hsigned : ∃ sigs', ctx.env.lib.txid ((mine.addSigs sigs).addSigs sigs') = .ok txid := by
    split at h
    · split at h
      · obtain ⟨tx', hx, htxid⟩ := hlast h rfl fun _ => rfl
        obtain ⟨tx₁, htx', hsome⟩ := Except.map_eq_ok_iff.mp hx
        obtain rfl := Option.some.inj hsome
        obtain ⟨sigs', rfl⟩ := hadd htx'
        exact ⟨sigs', htxid⟩
      · obtain ⟨tx', hx, -⟩ := hlast h rfl fun _ => rfl
        cases Except.ok.inj hx
    · obtain ⟨tx', hx, htxid⟩ := hlast h rfl fun _ => rfl
      obtain ⟨tx₁, htx', hsome⟩ := Except.map_eq_ok_iff.mp hx
      obtain rfl := Option.some.inj hsome
      unfold signSettlement at htx'
      split at htx'
      · obtain rfl := Except.ok.inj htx'
        exact ⟨_, htxid⟩
      · cases htx'
  obtain ⟨sigs', htxid⟩ := hsigned
  rw [BtcTransaction.addSigs_addSigs] at htxid
  exact ⟨mine, sigs ++ sigs', hmine, htxid⟩

/-! ## What is on record -/

section Evidence

variable {env : OcEnv P} {chain : Outpoint → String → List String → Prop}

/-- Where a settlement on record comes from: the daemon has built a transaction of this id that spends
the pinned outpoint through the leaf, or the witness of one on the chain says so. -/
inductive SpendsPinned (env : OcEnv P) (chain : Outpoint → String → List String → Prop)
    (o : OnchainOrder) (name : EscrowLeafName) (txid : String) : Prop
  | completed (pinned : Outpoint) (descriptor : EscrowDescriptor) (leaf : EscrowLeaf)
      (tx : BtcTransaction) (hpinned : parseOutpoint o.fundingOutpoint = some pinned)
      (hdescriptor : escrowDescriptorFor env o = some descriptor)
      (hleaf : descriptor.leaf name = .ok leaf) (htx : tx.SpendsThrough pinned leaf.script)
      (htxid : env.lib.txid tx = .ok txid)
  | observed (pinned : Outpoint) (descriptor : EscrowDescriptor) (witness : List String)
      (hpinned : parseOutpoint o.fundingOutpoint = some pinned)
      (hdescriptor : deriveEscrowAddress env.lib ⟨o.customerXonly.getD "undefined",
        o.sponsorXonly.getD "undefined", o.adminXonly.getD "undefined"⟩ o.network o.timelockBlocks =
          .ok descriptor)
      (hwitness : chain pinned txid witness)
      (hleaf : leafOfWitness (some witness) descriptor.leaves = some name)

/-- The fields that the escrow and its funding are read from. -/
def OnchainOrder.escrowed (o : OnchainOrder) :=
  (o.fundingOutpoint, o.customerXonly, o.sponsorXonly, o.adminXonly, o.network, o.timelockBlocks)

theorem SpendsPinned.congr {o o' : OnchainOrder} {name : EscrowLeafName} {txid : String}
    (h : SpendsPinned env chain o name txid) (hsame : o'.escrowed = o.escrowed) :
    SpendsPinned env chain o' name txid := by
  simp only [OnchainOrder.escrowed, Prod.mk.injEq] at hsame
  obtain ⟨hf, hc, hs, ha, hn, ht⟩ := hsame
  cases h with
  | completed pinned descriptor leaf tx hpinned hdescriptor hleaf htx htxid =>
    refine .completed pinned descriptor leaf tx (hf ▸ hpinned) ?_ hleaf htx htxid
    rw [← hdescriptor, escrowDescriptorFor, escrowDescriptorFor, hc, hs, ha, hn, ht]
  | observed pinned descriptor witness hpinned hdescriptor hwitness hleaf =>
    refine .observed pinned descriptor witness (hf ▸ hpinned) ?_ hwitness hleaf
    rw [hc, hs, ha, hn, ht]
    exact hdescriptor

/-- A transaction of this id on the chain spends the pinned outpoint through the leaf. -/
def SpentThrough (env : OcEnv P) (chain : Outpoint → String → List String → Prop) (o : OnchainOrder)
    (name : EscrowLeafName) (txid : String) : Prop :=
  ∃ pinned descriptor witness, parseOutpoint o.fundingOutpoint = some pinned ∧
    deriveEscrowAddress env.lib ⟨o.customerXonly.getD "undefined", o.sponsorXonly.getD "undefined",
      o.adminXonly.getD "undefined"⟩ o.network o.timelockBlocks = .ok descriptor ∧
    chain pinned txid witness ∧ leafOfWitness (some witness) descriptor.leaves = some name

/-- The daemon has completed, with a signature of the party it waited for, a settlement of the escrow
through the leaf, and this is its id. -/
def CompletedThrough (env : OcEnv P) (o : OnchainOrder) (name : EscrowLeafName) (txid : String) :
    Prop :=
  ∃ event o₀ m kind rawHex, o₀.escrowed = o.escrowed ∧
    settlementLeafFor (settlementPathForKind kind) = name ∧ Completes env event o₀ m kind txid rawHex

/-- How a settlement gets on record. -/
def Settles (env : OcEnv P) (chain : Outpoint → String → List String → Prop) (o : OnchainOrder)
    (name : EscrowLeafName) (txid : String) : Prop :=
  SpentThrough env chain o name txid ∨ CompletedThrough env o name txid

theorem Settles.congr {o o' : OnchainOrder} {name : EscrowLeafName} {txid : String}
    (h : Settles env chain o name txid) (hsame : o'.escrowed = o.escrowed) :
    Settles env chain o' name txid := by
  obtain ⟨pinned, descriptor, witness, hpinned, hdescriptor, hspent, hleaf⟩ |
    ⟨event, o₀, m, kind, rawHex, hfields, hkind, hdone⟩ := h
  · simp only [OnchainOrder.escrowed, Prod.mk.injEq] at hsame
    obtain ⟨hf, hc, hs, ha, hn, ht⟩ := hsame
    refine .inl ⟨pinned, descriptor, witness, hf ▸ hpinned, ?_, hspent, hleaf⟩
    rw [hc, hs, ha, hn, ht]
    exact hdescriptor
  · exact .inr ⟨event, o₀, m, kind, rawHex, hfields.trans hsame.symm, hkind, hdone⟩

/-- The ends in which the escrow has been paid out by one of the two parties' leaves. -/
def OnchainState.paidOut : OnchainState → Bool
  | .released | .refunded | .sponsorWins | .customerWins => true
  | _ => false

example : OnchainState.swept.paidOut = false := by decide +kernel

/-- What is on record of an order that is being settled, or has been: a kind, of which it is the end,
and a settlement through the leaf of the kind. -/
def Winner (env : OcEnv P) (chain : Outpoint → String → List String → Prop) (o : OnchainOrder) :
    Prop :=
  o.state = .settling ∨ o.state.paidOut = true → ∃ kind txid,
    o.settlementKind = some kind ∧ o.settlementTxid = some txid ∧
    (o.state = .settling ∨ o.state = kind.terminal) ∧
    Settles env chain o (settlementLeafFor (settlementPathForKind kind)) txid

/-- A completed settlement is built to spend the pinned outpoint through the leaf of its kind. -/
theorem Completes.spendsPinned {event : OcEvent} {o : OnchainOrder} {m : OcMeta}
    {kind : SettlementKind} {txid rawHex : String} (h : Completes env event o m kind txid rawHex) :
    SpendsPinned env chain o (settlementLeafFor (settlementPathForKind kind)) txid := by
  obtain ⟨expected, signerXonly, psbt, sig, leafScript, hexpected, -, -, -, hcomplete⟩ := h
  obtain ⟨mine, sigs, hmine, htxid⟩ := completeSettlement_ok hcomplete
  obtain ⟨leaf, hleaf, hspends⟩ := spendsThrough_of_build hmine
  unfold settlementParamsFor at hexpected
  split at hexpected
  · rename_i descriptor outpoint hdescriptor hpinned
    dsimp only at hexpected
    split at hexpected
    · obtain rfl := Option.some.inj hexpected
      exact .completed outpoint descriptor leaf _ hpinned hdescriptor hleaf (hspends.addSigs sigs)
        htxid
    · cases hexpected
  · cases hexpected

theorem CompletedThrough.spendsPinned {o : OnchainOrder} {name : EscrowLeafName} {txid : String}
    (h : CompletedThrough env o name txid) : SpendsPinned env chain o name txid := by
  obtain ⟨event, o₀, m, kind, rawHex, hfields, rfl, hdone⟩ := h
  have hspends : SpendsPinned env chain o₀ _ txid := hdone.spendsPinned
  exact hspends.congr hfields.symm

/-- A settlement on record comes from a transaction for the leaf. -/
theorem Settles.spendsPinned {o : OnchainOrder} {name : EscrowLeafName} {txid : String}
    (h : Settles env chain o name txid) : SpendsPinned env chain o name txid := by
  obtain ⟨pinned, descriptor, witness, hpinned, hdescriptor, hspent, hleaf⟩ | hdone := h
  · exact .observed pinned descriptor witness hpinned hdescriptor hspent hleaf
  · exact hdone.spendsPinned

/-- A spend that is adopted is of the leaf of the kind it is taken for. -/
theorem adoptedKind_leaf {o : OnchainOrder} {leaf : Option EscrowLeafName} {kind : SettlementKind}
    (h : OcCtx.adoptedKind o leaf = some kind) :
    leaf = some (settlementLeafFor (settlementPathForKind kind)) := by
  unfold OcCtx.adoptedKind at h
  split at h
  · rename_i hleaf
    obtain rfl := Option.some.inj h
    exact hleaf
  · exact of_decide_eq_true (Option.filter_eq_some_iff.mp h).2

/-- The chain has shown a spend of the pinned outpoint of an order. -/
def Shown (env : OcEnv P) (chain : Outpoint → String → List String → Prop) (o : OnchainOrder)
    (txid : String) (leaf : Option EscrowLeafName) : Prop :=
  ∀ name, leaf = some name → SpentThrough env chain o name txid

/-- Each change keeps it. -/
theorem OcChange.winner {c : OcCause} {o o' : OnchainOrder} {m m' : OcMeta}
    (h : OcChange c o m o' m')
    (hcompletes : ∀ kind txid rawHex, c.completes o m kind txid rawHex →
      ∃ event, Completes env event o m kind txid rawHex)
    (hshown : ∀ txid leaf, c.acts o (.observeSpend txid leaf) → Shown env chain o txid leaf)
    (hconfirmed : c.acts o .confirmed → o.state = .settling) (hw : Winner env chain o) :
    Winner env chain o' := by
  cases h with
  | bond | fund | reorg | presig | remit | dispute | cancel | sweep =>
    rintro (hs | hs)
    · exact absurd hs (by simp)
    · exact absurd hs (by simp [OnchainState.paidOut])
  | account commitment hpresigned | objection hpresigned =>
    rintro (hs | hs)
    · exact absurd (hpresigned.symm.trans hs) (by simp)
    · have hpaid : o.state.paidOut = true := hs
      rw [hpresigned] at hpaid
      exact absurd hpaid (by decide)
  | decide kind feeSat fold o₁ hmay ho hb =>
    subst ho
    have hruling := (mayDecide_state hmay).2
    intro hs
    dsimp only at hs
    split at hs
    · rename_i hr
      rw [hruling hr] at hs
      exact absurd hs (by decide)
    · exact absurd hs (by decide)
  | cosign kind txid rawHex hk hcan hc ht =>
    obtain ⟨event, hcompleted⟩ := hcompletes kind txid rawHex ht
    intro _
    exact ⟨kind, txid, rfl, rfl, .inl rfl, .inr ⟨event, o, m, kind, rawHex, rfl, rfl, hcompleted⟩⟩
  | adopt txid leaf kind settlingAt hadopted hact =>
    intro _
    have hspends : Settles env chain o _ txid := .inl (hshown txid leaf hact _ (adoptedKind_leaf hadopted))
    exact ⟨kind, txid, rfl, rfl, .inl rfl, hspends.congr rfl⟩
  | confirmed kind hk hact =>
    obtain ⟨kind', txid, hkind, htxid, -, hspends⟩ := hw (.inl (hconfirmed hact))
    obtain rfl : kind' = kind := Option.some.inj (hkind.symm.trans hk)
    intro _
    exact ⟨kind', txid, hkind, htxid, .inr rfl, hspends.congr rfl⟩
  | resolve kind hk hkind hstate hres =>
    intro hs
    obtain ⟨kind', txid, hkind', htxid, hend, hspends⟩ := hw hs
    obtain rfl : kind' = .refundAccountDisputed := Option.some.inj (hkind'.symm.trans hk)
    -- the definite reason is settled through the same leaf and ends the same way
    refine ⟨kind, txid, rfl, htxid, ?_, ?_⟩
    · obtain rfl | rfl := hkind
      · exact hend
      · exact hend
    · obtain rfl | rfl := hkind
      · exact hspends.congr rfl
      · exact hspends.congr rfl

end Evidence

/-! ## In every run -/

/-- What the explorer says of a spend is so: if it gives a witness, the transaction of this id spends
the outpoint with it. -/
def SpendsTruthful (chain : Outpoint → String → List String → Prop) (w : OcWorld) (i : OcInput) : Prop :=
  ∀ answers price p rest pinned txid confirmed witness, i = .judge answers price →
    w.polling = p :: rest → parseOutpoint p.order.fundingOutpoint = some pinned →
    answers.outspend = .known (.spent txid confirmed (some witness)) → chain pinned txid witness

/-- A spend that the watcher acts on has been shown. -/
theorem Judged.shown {env : OcEnv P} {chain : Outpoint → String → List String → Prop} {w : OcWorld}
    {i : OcInput} {o : OnchainOrder} {txid : String} {leaf : Option EscrowLeafName}
    (hw : (ocSystem env).Reachable w) (hi : SpendsTruthful chain w i)
    (h : Judged env w i o (.observeSpend txid leaf)) : Shown env chain o txid leaf := by
  obtain ⟨answers, price, p, rest, facts, r, rfl, hpoll, rfl, -, -, -, hfacts, ha⟩ := h.asked hw
  obtain ⟨confirmed, hpinned⟩ := observeSpend_of_decide ha.symm
  have hgather := (gather_ok hfacts).2 _ hpinned
  obtain ⟨witness, descriptor, hspent, hdescriptor, rfl⟩ := spent_of_gather hgather
  intro name hname
  cases hparse : parseOutpoint p.order.fundingOutpoint with
  | none =>
    rw [gatherPinnedFacts, hparse] at hgather
    cases hgather
  | some pinned =>
    cases witness with
    | none => cases hname
    | some witness =>
      exact ⟨pinned, descriptor, witness, hparse, hdescriptor,
        hi answers price p rest pinned txid confirmed witness rfl hpoll hparse hspent, hname⟩

/-- What is on record in every run in which the explorer tells the truth about spends. -/
theorem winner_of_reachable {env : OcEnv P} {chain : Outpoint → String → List String → Prop}
    {w : OcWorld} (hw : (ocSystem env).ReachableBy (SpendsTruthful chain) w) {id : OrderId} {r : OcRow}
    (hr : getOc id w.db = some r) : Winner env chain r.order := by
  suffices hall : ∀ id r, getOc id w.db = some r → Winner env chain r.order from hall id r hr
  refine TransitionSystem.invariant_by (M := ocSystem env)
    (P := fun w => ∀ id r, getOc id w.db = some r → Winner env chain r.order) ?_ ?_ hw
  · rintro _ ⟨now, rfl⟩ id r hr
    exact absurd hr (by simp [OcWorld.init, OcWorld.emptyDb, getOc])
  · intro w i w' hreach ih hi h id r' hr'
    obtain ⟨r, hr, hrow⟩ | hfresh := (step_next h).back hr'
    · have hwinner := ih id r hr
      cases hrow with
      | noted ho => exact ho ▸ hwinner
      | changed o' hchange hlegal ho hv =>
        have hnew : Winner env chain o' := hchange.winner
          (fun kind txid rawHex hact => hact.imp fun _ h => h.choose_spec.2)
          (fun txid leaf hact => hact.shown hreach.reachable hi)
          (fun hact => confirmed_of_decide hact.decided.choose_spec) hwinner
        rw [ho]
        intro hs
        obtain ⟨kind, txid, hkind, htxid, hend, hspends⟩ := hnew hs
        exact ⟨kind, txid, hkind, htxid, hend, hspends.congr rfl⟩
    · rintro (hs | hs)
      · exact absurd (hfresh.listed.symm.trans hs) (by simp)
      · rw [hfresh.listed] at hs
        exact absurd hs (by decide)

/-! ## What has been on the chain -/

/-- An end is confirmed on a settlement that is known to be deep enough. -/
theorem settled_of_decide {order : OnchainOrder} {ctx : OnchainWatchContext}
    (h : decideOnchainAction order ctx = .confirmed) : ∃ status,
      ctx.settlementTx = some (.known status) ∧ status.confirmed = true ∧
        requiredConfirmations order.amountSat ≤ status.confirmations := by
  have htx : decideSettlementTx order ctx = .confirmed → ∃ status,
      ctx.settlementTx = some (.known status) ∧ status.confirmed = true ∧
        requiredConfirmations order.amountSat ≤ status.confirmations := by
    intro h
    unfold decideSettlementTx at h
    split at h
    · cases h
    · cases h
    · rename_i status hstatus
      split at h
      · rename_i hdeep
        exact ⟨status, hstatus, hdeep⟩
      · split at h
        · split at h <;> cases h
        · split at h <;> cases h
  have hs := confirmed_of_decide h
  unfold decideOnchainAction at h
  rw [hs] at h
  dsimp only at h
  split at h
  · cases h
  · unfold decideSettling at h
    split at h
    · cases h
    · split at h
      · split at h
        · cases h
        · exact htx h
      · exact htx h

/-- The status that is known is the one that has been asked for. -/
theorem status_of_gather {lib : BtcSigner P} {order : OnchainOrder} {answers : ChainAnswers}
    {facts : Facts} {status : TxStatus} (h : gather lib order answers = .ok facts)
    (hstatus : facts.settlementTx = some (.known status)) :
    getTxStatus answers.settlementTx answers.settlementTip = .known status := by
  have hasked : ∀ pinned, Except.ok (ε := String) (Facts.mk (fundsOf order answers) pinned
      (if order.state = .settling ∧ (given order.settlementTxid).isSome then
        some (getTxStatus answers.settlementTx answers.settlementTip) else none)) = .ok facts →
      getTxStatus answers.settlementTx answers.settlementTip = .known status := by
    intro pinned h
    obtain rfl := Except.ok.inj h
    dsimp only at hstatus
    split at hstatus
    · exact Option.some.inj hstatus
    · cases hstatus
  unfold gather at h
  split at h
  · obtain rfl := Except.ok.inj h
    cases hstatus
  · by_cases hgiven : (given order.fundingOutpoint).isSome = true
    · rw [if_pos hgiven] at h
      obtain ⟨pinned, -, h⟩ := Except.bind_eq_ok_iff.mp h
      exact hasked pinned h
    · rw [if_neg hgiven] at h
      obtain ⟨pinned, -, h⟩ := Except.bind_eq_ok_iff.mp h
      exact hasked pinned h

section Mined

variable {env : OcEnv P} {chain : Outpoint → String → List String → Prop}

end Mined

/-- The transaction of the refund. -/
def refundTxid : String := "efefefefefefefefefefefefefefefefefefefefefefefefefefefefefefefef"

end LnPay
