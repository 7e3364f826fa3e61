/-
# What the watcher's actions say of the chain

Each action is read back to the answers it was decided on, and an answer that is
not known is shown to lead to no action.
-/
import LnPay.OcWatcher

namespace LnPay

/-! ## Actions -/

section Decide

variable {order : OnchainOrder} {ctx : OnchainWatchContext}

/-- What is decided of a settlement transaction is no spend, reorganisation, cancellation or
funding. -/
theorem decideSettlementTx_quiet :
    (∀ txid leaf, decideSettlementTx order ctx ≠ .observeSpend txid leaf) ∧
      decideSettlementTx order ctx ≠ .reorg ∧ decideSettlementTx order ctx ≠ .cancel ∧
      (∀ p n k, decideSettlementTx order ctx ≠ .fund p n k) := by
  unfold decideSettlementTx
  split
  · simp
  · simp
  · split
    · simp
    · split
      · split <;> simp
      · split <;> simp

theorem decidePresigned_quiet :
    (∀ txid leaf, decidePresigned order ctx ≠ .observeSpend txid leaf) ∧
      decidePresigned order ctx ≠ .reorg ∧ decidePresigned order ctx ≠ .cancel ∧
      (∀ p n k, decidePresigned order ctx ≠ .fund p n k) := by
  unfold decidePresigned
  split
  · split <;> simp
  · split
    · simp
    · split <;> simp

theorem decideAlive_quiet :
    (∀ txid leaf, decideAlive order ctx ≠ .observeSpend txid leaf) ∧
      decideAlive order ctx ≠ .reorg ∧ decideAlive order ctx ≠ .cancel ∧
      (∀ p n k, decideAlive order ctx ≠ .fund p n k) := by
  unfold decideAlive
  split
  · split <;> simp
  · exact decidePresigned_quiet
  · unfold decideRemitted
    dsimp only
    split
    · simp
    · split <;> simp
  · unfold escalation
    dsimp only
    split
    · simp
    · split <;> simp
  · simp

/-- A bonded order is funded on exactly one confirmed output that is deep enough, and cancelled when
nothing at all is confirmed and the deadline has passed. -/
theorem decideBonded_cases :
    (∀ txid leaf, decideBonded order ctx ≠ .observeSpend txid leaf) ∧
      decideBonded order ctx ≠ .reorg ∧
      (decideBonded order ctx = .cancel →
        (judgeFunding ctx.funds order.amountSat = .none ∨
          judgeFunding ctx.funds order.amountSat = .pending) ∧
        0 < order.fundingDeadline.getD 0 ∧ order.fundingDeadline.getD 0 ≤ ctx.now) ∧
      (∀ p n k, decideBonded order ctx = .fund p n k →
        judgeFunding ctx.funds order.amountSat = .funded p n) := by
  unfold decideBonded
  split
  · simp
  · simp
  · simp
  · rename_i hnone
    dsimp only
    split
    · rename_i hdeadline
      simp [hnone, hdeadline]
    · simp
  · rename_i hpending
    dsimp only
    split
    · rename_i hdeadline
      simp [hpending, hdeadline]
    · simp
  · rename_i p n hfunded
    dsimp only
    split
    · simp
    · simp
    · split
      · simp
      · split
        · simp
        · refine ⟨by simp, by simp, by simp, fun p' n' k h => ?_⟩
          obtain ⟨rfl, rfl, -⟩ := OnchainAction.fund.inj h
          exact hfunded

theorem decidePinned_cases :
    (∀ txid leaf, decidePinned order ctx = .observeSpend txid leaf →
        ∃ confirmed, ctx.pinned = some (.spent txid leaf confirmed)) ∧
      (decidePinned order ctx = .reorg →
        (order.state = .funded ∨ order.state = .presigned) ∧
          ((∃ n, ctx.pinned = some (.shallow n)) ∨ ctx.pinned = some .gone)) ∧
      decidePinned order ctx ≠ .cancel ∧ (∀ p n k, decidePinned order ctx ≠ .fund p n k) := by
  have hsome : ∀ p, ctx.pinned.getD (.unknown "펀딩 사실을 아직 안 물어봤다") = p →
      (∀ why, p ≠ .unknown why) → ctx.pinned = some p := by
    rintro p rfl hp
    cases hc : ctx.pinned with
    | none =>
      rw [hc] at hp
      exact absurd rfl (hp _)
    | some q => rfl
  unfold decidePinned
  split
  · simp
  · rename_i txid leaf confirmed hspent
    refine ⟨fun txid' leaf' h => ?_, by simp, by simp, by simp⟩
    obtain ⟨rfl, rfl⟩ := OnchainAction.observeSpend.inj h
    exact ⟨confirmed, hsome _ hspent (by simp)⟩
  · rename_i n hshallow
    split
    · rename_i hstate
      exact ⟨by simp, fun _ => ⟨hstate, .inl ⟨n, hsome _ hshallow (by simp)⟩⟩, by simp, by simp⟩
    · simp
  · rename_i hgone
    split
    · rename_i hstate
      exact ⟨by simp, fun _ => ⟨hstate, .inr (hsome _ hgone (by simp))⟩, by simp, by simp⟩
    · simp
  · obtain ⟨hspend, hreorg, hcancel, hfund⟩ := @decideAlive_quiet order ctx
    exact ⟨fun txid leaf h => absurd h (hspend txid leaf), fun h => absurd h hreorg, hcancel, hfund⟩

theorem decideSettling_cases :
    (∀ txid leaf, decideSettling order ctx = .observeSpend txid leaf →
        ∃ confirmed, ctx.pinned = some (.spent txid leaf confirmed)) ∧
      decideSettling order ctx ≠ .reorg ∧ decideSettling order ctx ≠ .cancel ∧
      (∀ p n k, decideSettling order ctx ≠ .fund p n k) := by
  obtain ⟨hspend, hreorg, hcancel, hfund⟩ := @decideSettlementTx_quiet order ctx
  unfold decideSettling
  split
  · simp
  · split
    · rename_i txid leaf confirmed hpinned
      split
      · refine ⟨fun txid' leaf' h => ?_, by simp, by simp, by simp⟩
        obtain ⟨rfl, rfl⟩ := OnchainAction.observeSpend.inj h
        exact ⟨confirmed, hpinned⟩
      · exact ⟨fun txid leaf h => absurd h (hspend txid leaf), hreorg, hcancel, hfund⟩
    · exact ⟨fun txid leaf h => absurd h (hspend txid leaf), hreorg, hcancel, hfund⟩

/-- Which part of the decision it is that decides. -/
theorem decideOnchainAction_cases :
    (order.state = .bonded ∧ decideOnchainAction order ctx = decideBonded order ctx) ∨
      ((order.state = .funded ∨ order.state = .presigned ∨ order.state = .remitted ∨
          order.state = .disputed ∨ order.state = .refunding) ∧
        decideOnchainAction order ctx = decidePinned order ctx) ∨
      (order.state = .settling ∧ decideOnchainAction order ctx = decideSettling order ctx) ∨
      (order.state = .listed ∧ decideOnchainAction order ctx = .cancel) ∨
      decideOnchainAction order ctx = .idle ∨
      ∃ why, decideOnchainAction order ctx = .anomaly why := by
  unfold decideOnchainAction
  cases hs : order.state with
  | listed =>
    dsimp only
    split
    · exact .inr (.inr (.inr (.inl ⟨rfl, rfl⟩)))
    · exact .inr (.inr (.inr (.inr (.inl rfl))))
  | bonded => exact .inl ⟨rfl, rfl⟩
  | funded | presigned | remitted | disputed | refunding =>
    dsimp only
    split
    · exact .inr (.inr (.inr (.inr (.inr ⟨_, rfl⟩))))
    · exact .inr (.inl ⟨by simp, rfl⟩)
  | settling =>
    dsimp only
    split
    · exact .inr (.inr (.inr (.inr (.inr ⟨_, rfl⟩))))
    · exact .inr (.inr (.inl ⟨rfl, rfl⟩))
  | released | refunded | sponsorWins | customerWins | cancelled | swept =>
    exact .inr (.inr (.inr (.inr (.inl rfl))))

/-- A spend is observed only where the answers say so. -/
theorem observeSpend_of_decide {txid : String} {leaf : Option EscrowLeafName}
    (h : decideOnchainAction order ctx = .observeSpend txid leaf) :
    ∃ confirmed, ctx.pinned = some (.spent txid leaf confirmed) := by
  obtain ⟨-, heq⟩ | ⟨-, heq⟩ | ⟨-, heq⟩ | ⟨-, heq⟩ | heq | ⟨why, heq⟩ :=
    @decideOnchainAction_cases order ctx
  · exact absurd (heq ▸ h) (decideBonded_cases.1 txid leaf)
  · exact decidePinned_cases.1 txid leaf (heq ▸ h)
  · exact decideSettling_cases.1 txid leaf (heq ▸ h)
  all_goals cases heq.symm.trans h

/-- An order goes back only before money has flowed, and only on a pinned outpoint that is known to
be shallow or gone. -/
theorem reorg_of_decide (h : decideOnchainAction order ctx = .reorg) :
    (order.state = .funded ∨ order.state = .presigned) ∧
      ((∃ n, ctx.pinned = some (.shallow n)) ∨ ctx.pinned = some .gone) := by
  obtain ⟨-, heq⟩ | ⟨-, heq⟩ | ⟨-, heq⟩ | ⟨-, heq⟩ | heq | ⟨why, heq⟩ :=
    @decideOnchainAction_cases order ctx
  · exact absurd (heq ▸ h) decideBonded_cases.2.1
  · exact decidePinned_cases.2.1 (heq ▸ h)
  · exact absurd (heq ▸ h) decideSettling_cases.2.1
  all_goals cases heq.symm.trans h

/-- A bonded order is cancelled only when nothing is confirmed and its deadline has passed. -/
theorem cancel_of_decide (hs : order.state = .bonded)
    (h : decideOnchainAction order ctx = .cancel) :
    (judgeFunding ctx.funds order.amountSat = .none ∨
        judgeFunding ctx.funds order.amountSat = .pending) ∧
      0 < order.fundingDeadline.getD 0 ∧ order.fundingDeadline.getD 0 ≤ ctx.now := by
  unfold decideOnchainAction at h
  rw [hs] at h
  exact decideBonded_cases.2.2.1 h

/-- An order is funded only from `bonded`, on the verdict on its address. -/
theorem fund_of_decide {p : Outpoint} {n : ℕ} {k : ℤ}
    (h : decideOnchainAction order ctx = .fund p n k) :
    order.state = .bonded ∧ judgeFunding ctx.funds order.amountSat = .funded p n := by
  obtain ⟨hs, heq⟩ | ⟨-, heq⟩ | ⟨-, heq⟩ | ⟨-, heq⟩ | heq | ⟨why, heq⟩ :=
    @decideOnchainAction_cases order ctx
  · exact ⟨hs, decideBonded_cases.2.2.2 p n k (heq ▸ h)⟩
  · exact absurd (heq ▸ h) (decidePinned_cases.2.2.2 p n k)
  · exact absurd (heq ▸ h) (decideSettling_cases.2.2.2 p n k)
  all_goals cases heq.symm.trans h

/-- The actions that are decided on in one state only. -/
theorem decideBonded_ends : decideBonded order ctx ≠ .dispute ∧ decideBonded order ctx ≠ .confirmed := by
  unfold decideBonded
  split
  · simp
  · simp
  · simp
  · dsimp only
    split <;> simp
  · dsimp only
    split <;> simp
  · dsimp only
    split
    · simp
    · simp
    · split
      · simp
      · split <;> simp

theorem decideSettling_dispute : decideSettling order ctx ≠ .dispute := by
  have htx : decideSettlementTx order ctx ≠ .dispute := by
    unfold decideSettlementTx
    split
    · simp
    · simp
    · split
      · simp
      · split
        · split <;> simp
        · split <;> simp
  unfold decideSettling
  split
  · simp
  · split
    · split
      · simp
      · exact htx
    · exact htx

theorem decidePinned_ends :
    decidePinned order ctx ≠ .confirmed ∧
      (decidePinned order ctx = .dispute → order.state = .remitted) := by
  have halive : decideAlive order ctx ≠ .confirmed ∧
      (decideAlive order ctx = .dispute → order.state = .remitted) := by
    unfold decideAlive
    split
    · split <;> simp
    · unfold decidePresigned
      split
      · split <;> simp
      · split
        · simp
        · split <;> simp
    · rename_i hs
      refine ⟨?_, fun _ => hs⟩
      unfold decideRemitted
      dsimp only
      split
      · simp
      · split <;> simp
    · unfold escalation
      dsimp only
      split
      · simp
      · split <;> simp
    · simp
  unfold decidePinned
  split
  · simp
  · simp
  · split <;> simp
  · split <;> simp
  · exact halive

/-- A dispute is opened by the clock in `remitted` only. -/
theorem dispute_of_decide (h : decideOnchainAction order ctx = .dispute) :
    order.state = .remitted := by
  obtain ⟨-, heq⟩ | ⟨-, heq⟩ | ⟨-, heq⟩ | ⟨-, heq⟩ | heq | ⟨why, heq⟩ :=
    @decideOnchainAction_cases order ctx
  · exact absurd (heq ▸ h) decideBonded_ends.1
  · exact decidePinned_ends.2 (heq ▸ h)
  · exact absurd (heq ▸ h) decideSettling_dispute
  all_goals cases heq.symm.trans h

/-- An end is confirmed in `settling` only. -/
theorem confirmed_of_decide (h : decideOnchainAction order ctx = .confirmed) :
    order.state = .settling := by
  obtain ⟨-, heq⟩ | ⟨-, heq⟩ | ⟨hs, heq⟩ | ⟨-, heq⟩ | heq | ⟨why, heq⟩ :=
    @decideOnchainAction_cases order ctx
  · exact absurd (heq ▸ h) decideBonded_ends.2
  · exact absurd (heq ▸ h) decidePinned_ends.1
  · exact hs
  all_goals cases heq.symm.trans h

/-- An order is cancelled before its funding only. -/
theorem early_of_cancel (h : decideOnchainAction order ctx = .cancel) :
    order.state = .listed ∨ order.state = .bonded := by
  obtain ⟨hs, heq⟩ | ⟨-, heq⟩ | ⟨-, heq⟩ | ⟨hs, heq⟩ | heq | ⟨why, heq⟩ :=
    @decideOnchainAction_cases order ctx
  · exact .inr hs
  · exact absurd (heq ▸ h) decidePinned_cases.2.2.1
  · exact absurd (heq ▸ h) decideSettling_cases.2.2.1
  · exact .inl hs
  all_goals cases heq.symm.trans h

/-- A spend is observed from the funding on. -/
theorem pinned_of_observeSpend {txid : String} {leaf : Option EscrowLeafName}
    (h : decideOnchainAction order ctx = .observeSpend txid leaf) :
    order.state = .funded ∨ order.state = .presigned ∨ order.state = .remitted ∨
      order.state = .disputed ∨ order.state = .refunding ∨ order.state = .settling := by
  obtain ⟨-, heq⟩ | ⟨hs, heq⟩ | ⟨hs, heq⟩ | ⟨-, heq⟩ | heq | ⟨why, heq⟩ :=
    @decideOnchainAction_cases order ctx
  · exact absurd (heq ▸ h) (decideBonded_cases.1 txid leaf)
  · obtain hs | hs | hs | hs | hs := hs <;> simp [hs]
  · simp [hs]
  all_goals cases heq.symm.trans h

end Decide

/-! ## Verdicts -/

/-- Nothing is confirmed. -/
theorem judgeFunding_none {funds : Query AddressFunds} {amountSat : ℚ}
    (h : judgeFunding funds amountSat = .none ∨ judgeFunding funds amountSat = .pending) :
    ∃ f, funds = .known f ∧ f.confirmed = [] := by
  unfold judgeFunding at h
  split at h
  · exact absurd h (by simp)
  · rename_i f
    refine ⟨f, rfl, ?_⟩
    split at h
    · assumption
    · split at h
      · exact absurd h (by simp)
      · split at h <;> exact absurd h (by simp)
    · exact absurd h (by simp)

/-- The funding is the only confirmed output, of the amount, and deep enough. -/
theorem judgeFunding_funded {funds : Query AddressFunds} {amountSat : ℚ} {p : Outpoint} {n : ℕ}
    (h : judgeFunding funds amountSat = .funded p n) :
    ∃ f u, funds = .known f ∧ f.confirmed = [u] ∧ u.outpoint = p ∧ u.confirmations = n ∧
      u.valueSat = amountSat ∧ requiredConfirmations amountSat ≤ n := by
  unfold judgeFunding at h
  split at h
  · exact absurd h (by simp)
  · rename_i f
    split at h
    · split at h <;> exact absurd h (by simp)
    · rename_i u hconfirmed
      split at h
      · exact absurd h (by simp)
      · rename_i hvalue
        split at h
        · exact absurd h (by simp)
        · rename_i hdeep
          obtain ⟨rfl, rfl⟩ := FundingVerdict.funded.inj h
          exact ⟨f, u, rfl, hconfirmed, rfl, rfl, not_not.mp hvalue, not_lt.mp hdeep⟩
    · exact absurd h (by simp)

/-! ## Facts -/

section Gather

variable {P : Type} {lib : BtcSigner P} {order : OnchainOrder} {answers : ChainAnswers}

/-- What is gathered is the funds of the address and what they say of the pinned outpoint. -/
theorem gather_ok {facts : Facts} (h : gather lib order answers = .ok facts) :
    facts.funds = fundsOf order answers ∧ ∀ p, facts.pinned = some p →
      gatherPinnedFacts lib order (fundsOf order answers) answers = .ok (some p) := by
  unfold gather at h
  split at h
  · obtain rfl := Except.ok.inj h
    exact ⟨rfl, fun p hp => by cases hp⟩
  · by_cases hgiven : (given order.fundingOutpoint).isSome = true
    · rw [if_pos hgiven] at h
      obtain ⟨pinned, hpinned, h⟩ := Except.bind_eq_ok_iff.mp h
      obtain rfl := Except.ok.inj h
      refine ⟨rfl, fun p hp => ?_⟩
      obtain rfl : pinned = some p := hp
      exact hpinned
    · rw [if_neg hgiven] at h
      obtain ⟨pinned, hpinned, h⟩ := Except.bind_eq_ok_iff.mp h
      obtain rfl := Except.ok.inj h
      obtain rfl := Except.ok.inj hpinned
      exact ⟨rfl, fun p hp => by cases hp⟩

/-- A pinned outpoint of which it is known that it is not deep enough: it is listed with too few
confirmations, or not confirmed, or it is not listed, known to be unspent, and its transaction is
known not to be confirmed. -/
def KnownShallow (order : OnchainOrder) (answers : ChainAnswers) : Prop :=
  ∃ pinned f, parseOutpoint order.fundingOutpoint = some pinned ∧ fundsOf order answers = .known f ∧
    ((∃ u ∈ f.confirmed, u.outpoint = pinned ∧
        u.confirmations < requiredConfirmations order.amountSat) ∨
      (∃ u ∈ f.mempool, u.outpoint = pinned) ∨
      ((∀ u ∈ f.confirmed, u.outpoint ≠ pinned) ∧ answers.outspend = .known .unspent ∧
        ∃ status, getTxStatus answers.fundingTx answers.fundingTip = .known status ∧
          (status.seen = false ∨ status.confirmed = false)))

/-- A spend of the pinned outpoint is one the explorer has told of. -/
theorem spent_of_gather {funds : Query AddressFunds} {txid : String}
    {leaf : Option EscrowLeafName} {confirmed : Bool}
    (h : gatherPinnedFacts lib order funds answers = .ok (some (.spent txid leaf confirmed))) :
    ∃ witness descriptor, answers.outspend = .known (.spent txid confirmed witness) ∧
      deriveEscrowAddress lib ⟨order.customerXonly.getD "undefined",
        order.sponsorXonly.getD "undefined", order.adminXonly.getD "undefined"⟩ order.network
        order.timelockBlocks = .ok descriptor ∧
      leaf = leafOfWitness witness descriptor.leaves := by
  unfold gatherPinnedFacts at h
  split at h
  · cases h
  · split at h
    · cases h
    · cases h
    · cases h
    · split at h
      · cases h
      · rename_i txid' confirmed' witness hspent
        obtain ⟨descriptor, hdescriptor, h⟩ := Except.bind_eq_ok_iff.mp h
        obtain ⟨rfl, rfl, rfl⟩ := PinnedFacts.spent.inj (Option.some.inj (Except.ok.inj h))
        exact ⟨witness, descriptor, hspent, hdescriptor, rfl⟩
      · split at h
        · cases h
        · split at h
          · cases h
          · split at h <;> cases h

/-- A pinned outpoint is shallow or gone only when the answers are known and say so. -/
theorem knownShallow_of_gather {p : PinnedFacts} (hp : (∃ n, p = .shallow n) ∨ p = .gone)
    (h : gatherPinnedFacts lib order (fundsOf order answers) answers = .ok (some p)) :
    KnownShallow order answers := by
  unfold gatherPinnedFacts at h
  split at h
  · cases h
  · rename_i pinned hpinned
    unfold judgePinnedFunding at h
    cases hfunds : fundsOf order answers with
    | unknown reason =>
      rw [hfunds] at h
      obtain rfl := Option.some.inj (Except.ok.inj h)
      simp at hp
    | known f =>
      refine ⟨pinned, f, hpinned, hfunds, ?_⟩
      rw [hfunds] at h
      dsimp only at h
      cases hfind : f.confirmed.find? fun u => u.outpoint = pinned with
      | some u =>
        have hu := List.find?_some hfind
        have hmem := List.mem_of_find?_eq_some hfind
        rw [hfind] at h
        dsimp only at h
        by_cases hdeep : requiredConfirmations order.amountSat ≤ u.confirmations
        · rw [if_pos hdeep] at h
          obtain rfl := Option.some.inj (Except.ok.inj h)
          simp at hp
        · exact .inl ⟨u, hmem, of_decide_eq_true hu, not_le.mp hdeep⟩
      | none =>
        have hnone : ∀ u ∈ f.confirmed, u.outpoint ≠ pinned := by
          simpa using List.find?_eq_none.mp hfind
        rw [hfind] at h
        dsimp only at h
        by_cases hmempool : (f.mempool.any fun u => u.outpoint = pinned) = true
        · right; left
          simpa using List.any_eq_true.mp hmempool
        · rw [if_neg hmempool] at h
          dsimp only at h
          right; right
          split at h
          · obtain rfl := Option.some.inj (Except.ok.inj h)
            simp at hp
          · obtain ⟨descriptor, -, h⟩ := Except.bind_eq_ok_iff.mp h
            obtain rfl := Option.some.inj (Except.ok.inj h)
            simp at hp
          · rename_i hunspent
            refine ⟨hnone, hunspent, ?_⟩
            split at h
            · obtain rfl := Option.some.inj (Except.ok.inj h)
              simp at hp
            · rename_i status hstatus
              refine ⟨status, hstatus, ?_⟩
              by_cases hseen : status.seen = false
              · exact .inl hseen
              · by_cases hconfirmed : status.confirmed = false
                · exact .inr hconfirmed
                · rw [if_neg hseen, if_neg hconfirmed] at h
                  obtain rfl := Option.some.inj (Except.ok.inj h)
                  simp at hp

end Gather

end LnPay
