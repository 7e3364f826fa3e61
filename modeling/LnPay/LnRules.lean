/-
# The Lightning track's tables (`shared/src/ln`, `daemon/src/ln/timing.ts`)

* the order states and the allowed transitions (`TRANSITIONS`),
* the reasons for closing an order and what each does (`CLOSE_RULES`),
* the amounts: the payout fixed by the price, the escrow derived from it,
* the time windows of a trade.

`lt_computeEscrowSat` is the fact the amounts are there for: the escrow always
exceeds the payout, although it is computed in floating point.
-/
import LnPay.Binary64
import LnPay.HoldInvoice

namespace LnPay

/-! ## States -/

/-- `ORDER_STATES`. -/
inductive OrderState
  | requested | claimed | verified | escrowed | invoiced | remitted
  | paid | cancelled | sponsorWins | customerWins | adminClosed | expired
  deriving DecidableEq, Repr

/-- `TRANSITIONS`. -/
def OrderState.transitions : OrderState → List OrderState
  | .requested => [.claimed, .cancelled, .expired]
  | .claimed => [.requested, .verified, .cancelled, .expired]
  | .verified => [.escrowed, .cancelled, .expired]
  | .escrowed => [.invoiced, .adminClosed, .expired]
  | .invoiced => [.remitted, .paid, .adminClosed, .expired]
  | .remitted => [.paid, .sponsorWins, .customerWins]
  | .paid | .cancelled | .sponsorWins | .customerWins | .adminClosed | .expired => []

/-- `canTransition`. -/
def canTransition (source target : OrderState) : Bool := target ∈ source.transitions

/-- `isTerminalState`: no transition leaves the state. -/
def isTerminalState (state : OrderState) : Bool := state.transitions = []

/-! ## Closing -/

/-- `LnCloseReason`. -/
inductive LnCloseReason
  | paid | sponsorWins | customerWins | adminClosed
  | cancelCustomer | cancelCustomerAfterClaim | cancelUnpaidEscrow
  | expiredNoSponsor | expiredNotApproved | expiredUnpaidEscrow
  | expiredNoInvoice | expiredNoAccount | expiredNoRemit
  deriving DecidableEq, Repr

/-- What happens to a deposit. -/
inductive Disposition
  | refund | forfeit
  deriving DecidableEq, Repr

/-- `CloseRule`: the reason is the handling. -/
structure CloseRule where
  terminal : OrderState
  /-- settle takes the BTC (a payout follows), cancel gives it back to the customer -/
  escrow : DisposeAction
  customerDeposit : Disposition
  sponsorDeposit : Disposition
  deriving DecidableEq, Repr

/-- `CLOSE_RULES`. -/
def LnCloseReason.rule : LnCloseReason → CloseRule
  | .paid => ⟨.paid, .settle, .refund, .refund⟩
  | .sponsorWins => ⟨.sponsorWins, .settle, .refund, .refund⟩
  | .customerWins => ⟨.customerWins, .cancel, .refund, .forfeit⟩
  | .adminClosed => ⟨.adminClosed, .cancel, .refund, .refund⟩
  | .cancelCustomer => ⟨.cancelled, .cancel, .refund, .refund⟩
  | .cancelCustomerAfterClaim => ⟨.cancelled, .cancel, .forfeit, .refund⟩
  | .cancelUnpaidEscrow => ⟨.cancelled, .cancel, .forfeit, .refund⟩
  | .expiredNoSponsor => ⟨.expired, .cancel, .refund, .refund⟩
  | .expiredNotApproved => ⟨.expired, .cancel, .refund, .refund⟩
  | .expiredUnpaidEscrow => ⟨.expired, .cancel, .forfeit, .refund⟩
  | .expiredNoInvoice => ⟨.expired, .cancel, .refund, .forfeit⟩
  | .expiredNoAccount => ⟨.expired, .cancel, .forfeit, .refund⟩
  | .expiredNoRemit => ⟨.expired, .cancel, .refund, .refund⟩

/-- `expiryReasonFor`: how an order past its deadline is closed, if at all. -/
def expiryReasonFor (state : OrderState) (hasSponsor accountSent : Bool) : Option LnCloseReason :=
  match state with
  | .requested => some .expiredNoSponsor
  | .claimed => some (if hasSponsor then .expiredNotApproved else .expiredNoSponsor)
  | .verified => some .expiredUnpaidEscrow
  | .escrowed => some .expiredNoInvoice
  | .invoiced => some (if accountSent then .expiredNoRemit else .expiredNoAccount)
  | _ => none

/-- Every reason ends an order for good. -/
theorem LnCloseReason.terminal_isTerminal (r : LnCloseReason) :
    isTerminalState r.rule.terminal = true := by
  cases r <;> rfl

/-- A reason takes the escrow exactly when it ends in one of the two states that pay out. -/
theorem LnCloseReason.settles_iff (r : LnCloseReason) :
    r.rule.escrow = .settle ↔ r.rule.terminal = .paid ∨ r.rule.terminal = .sponsorWins := by
  cases r <;> decide

/-- A payout state is reached only from the states behind the account gate. -/
theorem source_of_settle {r : LnCloseReason} {s : OrderState}
    (h : canTransition s r.rule.terminal) (hr : r.rule.escrow = .settle) :
    s = .invoiced ∨ s = .remitted := by
  cases r <;> cases s <;> first | exact absurd hr (by decide) | exact absurd h (by decide) | simp

/-- The reason an expired order is closed with ends in a state that its own state may enter. -/
theorem canTransition_of_expiryReasonFor {state : OrderState} {s a : Bool} {r : LnCloseReason}
    (h : expiryReasonFor state s a = some r) : canTransition state r.rule.terminal = true := by
  cases state <;> cases s <;> cases a <;> simp [expiryReasonFor] at h <;> subst h <;> rfl

/-! ## Payout errors -/

/-- `LN_PAYOUT_INVOICE_EXPIRED`. -/
def payoutInvoiceExpired : String := "invoice-expired"

/-- `LN_PAYOUT_MANUAL_REQUESTED`. -/
def payoutManualRequested : String := "manual-requested"

/-- `LN_PAYOUT_MANUAL`. -/
def payoutManual : String := "manual"

/-- `isManualPayout`: the operator has stopped the payout, or is stopping it. -/
def isManualPayout (payoutError : Option String) : Bool :=
  payoutError = some payoutManualRequested || payoutError = some payoutManual

/-! ## Amounts -/

/-- `FEE_RATE`, the binary64 number written `1.005`. -/
def feeRate : ℚ := Binary64.roundNearest (1005 / 1000)

/-- `computePayoutSat`: the sponsor's sats at the current price; `none` when there are none. -/
def computePayoutSat (orderPriceKrw : ℕ) (btcPriceKrw : ℚ) : Option ℕ :=
  if orderPriceKrw = 0 ∨ btcPriceKrw ≤ 0 then none
  else
    let sat := Binary64.mathRound (Binary64.mul (Binary64.div orderPriceKrw btcPriceKrw) (10 ^ 8))
    if 0 < sat then some sat.toNat else none

/-- `computeEscrowSat`: the escrow is derived from the payout, never the other way round. -/
def computeEscrowSat (payoutSat : ℕ) : ℕ := ⌈Binary64.mul payoutSat feeRate⌉.toNat

/-- `isPayoutAmountExact`: an equation, not a range. -/
def isPayoutAmountExact (payoutSat : Option ℕ) (amountSat : ℕ) : Bool :=
  match payoutSat with
  | some p => 0 < p ∧ amountSat = p
  | none => false

/-- The deposit of a percentage of a number of sats: at least one. -/
def depositSat (basis pct : ℚ) : ℕ :=
  (max 1 (Binary64.mathRound (Binary64.div (Binary64.mul basis pct) 100))).toNat

/-- **The escrow exceeds the payout**: the margin survives the rounding, however small the sum. -/
theorem lt_computeEscrowSat {payoutSat : ℕ} (h : 0 < payoutSat) :
    payoutSat < computeEscrowSat payoutSat := by
  have hrate : 1 < feeRate * (1 - 1 / 2 ^ 53) := by
    rw [feeRate]
    decide +kernel
  have hlt := Binary64.lt_mul_of_one_lt (a := payoutSat) (by exact_mod_cast h) hrate
  have hceil : (payoutSat : ℤ) < ⌈Binary64.mul payoutSat feeRate⌉ := by
    rw [Int.lt_ceil]
    exact_mod_cast hlt
  unfold computeEscrowSat
  omega

theorem pos_of_computePayoutSat {price : ℕ} {btc : ℚ} {sat : ℕ}
    (h : computePayoutSat price btc = some sat) : 0 < sat := by
  unfold computePayoutSat at h
  split at h
  · cases h
  · dsimp only at h
    split at h
    · cases h
      omega
    · cases h

theorem isPayoutAmountExact_iff {payoutSat : Option ℕ} {amountSat : ℕ} :
    isPayoutAmountExact payoutSat amountSat = true ↔ payoutSat = some amountSat ∧ 0 < amountSat := by
  cases payoutSat with
  | none => simp [isPayoutAmountExact]
  | some p =>
    simp only [isPayoutAmountExact, decide_eq_true_eq, Option.some.injEq]
    omega

/-! ## Times -/

/-- One block in seconds, for counting CLTV blocks only. -/
def blockSec : ℕ := 600

/-- `LN_MIN_CLAIM_LEAD_SEC`. -/
def minClaimLeadSec : ℤ := 60 * 60

/-- `LN_MAX_DEADLINE_LEAD_SEC`. -/
def maxDeadlineLeadSec : ℤ := 7 * 24 * 60 * 60

/-- `ESCROW_PAY_WINDOW_SEC`. -/
def escrowPayWindowSec : ℤ := 24 * 60 * 60

/-- `ESCROW_PAY_LEAD_SEC`. -/
def escrowPayLeadSec : ℤ := 30 * 60

/-- `MIN_ESCROW_PAY_WINDOW_SEC`. -/
def minEscrowPayWindowSec : ℤ := 10 * 60

/-- `ESCROW_HOLD_MARGIN_SEC`. -/
def escrowHoldMarginSec : ℤ := 48 * 60 * 60

/-- `DEADLINE_GRACE_SEC`. -/
def deadlineGraceSec : ℤ := 60 * 60

/-- `SPONSOR_DEPOSIT_PAY_SEC`. -/
def sponsorDepositPaySec : ℤ := 15 * 60

/-- `CUSTOMER_DEPOSIT_PAY_SEC`. -/
def customerDepositPaySec : ℤ := 60 * 60

/-- `MIN_DEPOSIT_PAY_WINDOW_SEC`. -/
def minDepositPayWindowSec : ℤ := 5 * 60

/-- `SPONSOR_DEPOSIT_MARGIN_SEC`, also `CUSTOMER_DEPOSIT_MARGIN_SEC`. -/
def depositMarginSec : ℤ := deadlineGraceSec + escrowHoldMarginSec + 24 * 60 * 60

/-- `LN_MIN_SPONSOR_INVOICE_LIFETIME_SEC`. -/
def minSponsorInvoiceLifetimeSec : ℤ := 10 * 60

/-- `INVOICE_WINDOW_SEC`. -/
def invoiceWindowSec : ℤ := 6 * 60 * 60

/-- `PAY_BY_SKEW_SEC`. -/
def payBySkewSec : ℤ := 60

/-- `CATCHUP_WARMUP_SEC`. -/
def catchupWarmupSec : ℤ := 2 * 60

/-- `SAFETY_SETTLE_BLOCKS`. -/
def safetySettleBlocks : ℤ := 36

/-- `ESCROW_END_BLOCKS`. -/
def escrowEndBlocks : ℤ := 72

/-- `INVOICE_ESCROW_MIN_BLOCKS`. -/
def invoiceEscrowMinBlocks : ℤ := escrowEndBlocks + 36

/-- `CLTV_MAX_BLOCKS`. -/
def cltvMaxBlocks : ℕ := 1500

/-- `CLTV_MIN_BLOCKS`. -/
def cltvMinBlocks : ℕ := 40

/-- `cltvBlocksFor`: seconds to CLTV blocks, rounded up and clamped. -/
def cltvBlocksFor (spanSec : ℤ) : ℕ :=
  min cltvMaxBlocks (max cltvMinBlocks ((spanSec.toNat + (blockSec - 1)) / blockSec))

/-- `escrowPayBy`. -/
def escrowPayBy (deadline now : ℤ) : ℤ := min (now + escrowPayWindowSec) (deadline - escrowPayLeadSec)

/-- `invoiceDeadlineFor`. -/
def invoiceDeadlineFor (escrowedAt deadline : ℤ) : ℤ :=
  min (escrowedAt + invoiceWindowSec) (deadline + deadlineGraceSec)

end LnPay
