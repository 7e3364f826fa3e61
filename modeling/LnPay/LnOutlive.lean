/-
# Deposits and the escrow they stand for (`daemon/src/ln/timing.ts`, `daemon/src/ln/flow.ts`)

A deposit has to live longer than the escrow, or nothing is left to forfeit when
the escrow is decided.  `depositMarginSec` gives it a day more than the escrow
has; but each HTLC counts its blocks from the payment of its invoice, and the
escrow may be paid a day after the approval that planned it.

* `heightAt`: the chain with a block every `blockSec`;
* `DepositPlan`, `EscrowPlan`: the rows that the planning functions write;
* `deposit_outlives_escrow_iff`: when the deposit expires above the escrow.
-/
import LnPay.LnHandlers
import LnPay.LnClock

namespace LnPay

/-! ## Blocks -/

/-- The height of the chain at a time, with a block every `blockSec`: it is `base` at the time
zero, where the next block is already `offset` seconds in the making. -/
def heightAt (base offset t : ℤ) : ℤ := base + (t + offset) / blockSec

/-- The blocks of a span, rounded up. -/
def blocksIn (span : ℤ) : ℤ := (span + (blockSec - 1)) / blockSec

/-- The height at which the HTLC expires that paid this invoice at the time `t`. -/
def HoldRow.expiryAt (r : HoldRow) (base offset t : ℤ) : ℤ := heightAt base offset t + r.cltvBlocks

/-- Below the upper bound, `cltvBlocksFor` clamps only to the lower one. -/
theorem cltvBlocksFor_eq {span : ℤ} (h : span ≤ cltvMaxBlocks * blockSec) :
    (cltvBlocksFor span : ℤ) = max (cltvMinBlocks : ℤ) (blocksIn span) := by
  simp only [cltvBlocksFor, blocksIn, blockSec, cltvMaxBlocks, cltvMinBlocks] at h ⊢
  omega

/-- A day has 144 blocks, whatever it is added to. -/
theorem blocksIn_add_day (span : ℤ) : blocksIn (span + 24 * 60 * 60) = blocksIn span + 144 := by
  simp only [blocksIn, blockSec]
  omega

/-! ## What is planned -/

section Planned

variable {ctx : LnCtx} {db db' : LnDb} {row : HoldRow}

/-- The row is new in `db'`. -/
def Writes (db db' : LnDb) (row : HoldRow) : Prop :=
  db.holds.find row.paymentHash = none ∧ db'.holds.find row.paymentHash = some row

theorem updateOrder_holds {now : ℤ} {id : OrderId} {patch : LnOrderRow → LnOrderRow}
    (h : updateOrder now id patch db = .ok db') : db'.holds = db.holds := by
  unfold updateOrder at h
  split at h
  · cases h
  · cases h
    rfl

/-- `planLnHold` writes one row, which carries the time it is planned at. -/
theorem planLnHold_writes {purpose : HoldPurpose} {id : OrderId} {party : Pubkey} {amountSat : ℕ}
    {payBy holdUntil : ℤ} {inv : HoldRow}
    (h : ctx.planLnHold purpose id party amountSat payBy holdUntil db = .ok (inv, db'))
    (hw : Writes db db' row) : row.createdAt = ctx.now ∧ row.payBy = payBy ∧
      row.cltvBlocks = cltvBlocksFor (holdUntil - ctx.now) := by
  obtain ⟨hash, attempt, holds, rfl, -, hins, rfl⟩ := plan_spec h
  have hrow := hw.2
  rw [find_planned hins, hw.1] at hrow
  split at hrow
  · rw [← Option.some.inj hrow]
    exact ⟨rfl, rfl, rfl⟩
  · cases hrow

/-- `planCustomerDeposit`: the deposit is to live until `depositMarginSec` after the deadline. -/
theorem planCustomerDeposit_writes {draft : LnDraftRow} {pct : ℚ}
    (h : ctx.planCustomerDeposit draft pct db = .ok db') (hw : Writes db db' row) :
    row.createdAt = ctx.now ∧
      row.cltvBlocks = cltvBlocksFor (draft.deadline + depositMarginSec - ctx.now) := by
  have hsame : ∀ {s : LnDb}, s.holds = db.holds → ¬ Writes db s row := by
    intro s hs hw
    cases hw.1.symm.trans ((congrArg (·.find row.paymentHash) hs).symm.trans hw.2)
  unfold LnCtx.planCustomerDeposit at h
  split at h
  · cases h
    exact absurd hw (hsame rfl)
  · dsimp only at h
    split at h
    · cases h
      exact absurd hw (hsame rfl)
    · obtain ⟨⟨inv, db₁⟩, hplan, h⟩ := Except.bind_eq_ok_iff.mp h
      cases h
      obtain ⟨hnow, -, hblocks⟩ := planLnHold_writes hplan hw
      exact ⟨hnow, hblocks⟩

/-- `planSponsorDeposit`: the deposit is to live until `depositMarginSec` after the deadline. -/
theorem planSponsorDeposit_writes {order : LnOrderRow} {pct : ℚ}
    (h : ctx.planSponsorDeposit order pct db = .ok db') (hw : Writes db db' row) :
    row.createdAt = ctx.now ∧
      row.cltvBlocks = cltvBlocksFor (order.deadline + depositMarginSec - ctx.now) := by
  unfold LnCtx.planSponsorDeposit at h
  split at h
  · obtain ⟨⟨inv, db₁⟩, hplan, h⟩ := Except.bind_eq_ok_iff.mp h
    cases h
    obtain ⟨hnow, -, hblocks⟩ := planLnHold_writes hplan hw
    exact ⟨hnow, hblocks⟩
  · cases h
    have habsurd : none = some row := hw.1.symm.trans hw.2
    cases habsurd

/-- A claim that can be approved leaves the escrow time to be paid. -/
theorem LnCtx.payWindow_of_not_blocked {order : LnOrderRow}
    (h : ctx.approveBlocker order db = none) :
    minEscrowPayWindowSec ≤ escrowPayBy order.deadline ctx.now - ctx.now := by
  unfold LnCtx.approveBlocker at h
  repeat' split at h
  all_goals first | omega | cases h

/-- `approve`: the escrow is to live until `escrowHoldMarginSec` after the grace, for it is to be
paid before. -/
theorem approve_writes {order : LnOrderRow} (h : ctx.approve order db = .ok (none, db'))
    (hw : Writes db db' row) : row.createdAt = ctx.now ∧
      row.payBy = escrowPayBy order.deadline ctx.now ∧
      minEscrowPayWindowSec ≤ row.payBy - row.createdAt ∧
      row.cltvBlocks =
        cltvBlocksFor (order.deadline + deadlineGraceSec + escrowHoldMarginSec - ctx.now) := by
  unfold LnCtx.approve at h
  split at h
  · cases h
  · rename_i hblocker
    have hwindow := LnCtx.payWindow_of_not_blocked hblocker
    split at h
    · cases h
    · dsimp only at h
      obtain ⟨⟨inv, db₁⟩, hplan, h⟩ := Except.bind_eq_ok_iff.mp h
      obtain ⟨db₂, hupdate, h⟩ := Except.bind_eq_ok_iff.mp h
      cases h
      have hw' : Writes db db₁ row := ⟨hw.1, (updateOrder_holds hupdate) ▸ hw.2⟩
      obtain ⟨hnow, hpayBy, hblocks⟩ := planLnHold_writes hplan hw'
      refine ⟨hnow, hpayBy, ?_, hblocks.trans (congrArg _ ?_)⟩
      · rwa [hnow, hpayBy]
      · -- the payment is due half an hour before the deadline
        have hle : escrowPayBy order.deadline ctx.now ≤ order.deadline + deadlineGraceSec := by
          simp only [escrowPayBy, escrowPayLeadSec, deadlineGraceSec]
          omega
        rw [max_eq_right hle]

end Planned

/-! ## The plans of one order -/

/-- The deadline has passed the check of an order request at this time. -/
def TermsTaken (deadline requestedAt : ℤ) : Prop :=
  ∃ (ctx : LnCtx) (orderId : OrderId) (price : Option ℤ) (db : LnDb),
    ctx.now = requestedAt ∧ ctx.orderTermsBlocker orderId price (some deadline) db = none

/-- The row is the deposit that is planned for an order with this deadline: the customer's, planned
for the draft, or the sponsor's. -/
inductive DepositPlan (deadline : ℤ) (row : HoldRow) : Prop
  | customer {ctx : LnCtx} {draft : LnDraftRow} {pct : ℚ} {db db' : LnDb}
      (hplan : ctx.planCustomerDeposit draft pct db = .ok db') (hw : Writes db db' row)
      (hd : draft.deadline = deadline)
  | sponsor {ctx : LnCtx} {order : LnOrderRow} {pct : ℚ} {db db' : LnDb}
      (hplan : ctx.planSponsorDeposit order pct db = .ok db') (hw : Writes db db' row)
      (hd : order.deadline = deadline)

/-- The row is the escrow that an approval plans for an order with this deadline. -/
def EscrowPlan (deadline : ℤ) (row : HoldRow) : Prop :=
  ∃ (ctx : LnCtx) (order : LnOrderRow) (db db' : LnDb), order.deadline = deadline ∧
    ctx.approve order db = .ok (none, db') ∧ Writes db db' row

section Plans

variable {deadline requestedAt base offset : ℤ} {deposit escrow : HoldRow}

theorem TermsTaken.le (h : TermsTaken deadline requestedAt) :
    deadline ≤ requestedAt + maxDeadlineLeadSec := by
  obtain ⟨ctx, orderId, price, db, rfl, h⟩ := h
  unfold LnCtx.orderTermsBlocker at h
  split at h
  · cases h
  · split at h
    · cases h
    · dsimp only at h
      split at h
      · cases h
      · split at h
        · cases h
        · omega

/-- The time that the escrow is to live for, and with it the deposit, less a day. -/
def escrowSpan (deadline : ℤ) (row : HoldRow) : ℤ :=
  deadline + deadlineGraceSec + escrowHoldMarginSec - row.createdAt

theorem DepositPlan.cltvBlocks (h : DepositPlan deadline deposit)
    (hterms : TermsTaken deadline requestedAt) (hd : requestedAt ≤ deposit.createdAt) :
    (deposit.cltvBlocks : ℤ) =
      max (cltvMinBlocks : ℤ) (blocksIn (escrowSpan deadline deposit) + 144) := by
  have hle := hterms.le
  -- the margin of a deposit is that of the escrow and a day
  have hplanned : deposit.cltvBlocks =
      cltvBlocksFor (escrowSpan deadline deposit + 24 * 60 * 60) := by
    have hspan : ∀ {now : ℤ}, deposit.createdAt = now →
        deadline + depositMarginSec - now = escrowSpan deadline deposit + 24 * 60 * 60 := by
      intro now hnow
      simp only [escrowSpan, depositMarginSec]
      omega
    cases h with
    | customer hplan hw hdl =>
      obtain ⟨hnow, hblocks⟩ := planCustomerDeposit_writes hplan hw
      rw [hblocks, hdl, hspan hnow]
    | sponsor hplan hw hdl =>
      obtain ⟨hnow, hblocks⟩ := planSponsorDeposit_writes hplan hw
      rw [hblocks, hdl, hspan hnow]
  rw [hplanned, cltvBlocksFor_eq, blocksIn_add_day]
  simp only [escrowSpan, maxDeadlineLeadSec, deadlineGraceSec, escrowHoldMarginSec, cltvMaxBlocks,
    blockSec] at hle ⊢
  omega

theorem EscrowPlan.cltvBlocks (h : EscrowPlan deadline escrow)
    (hterms : TermsTaken deadline requestedAt) (he : requestedAt ≤ escrow.createdAt) :
    (escrow.cltvBlocks : ℤ) = blocksIn (escrowSpan deadline escrow) := by
  have hle := hterms.le
  obtain ⟨ctx, order, db, db', rfl, happrove, hw⟩ := h
  obtain ⟨hnow, hpayBy, hwindow, hblocks⟩ := approve_writes happrove hw
  rw [hpayBy, ← hnow] at hwindow
  rw [← hnow] at hblocks
  rw [hblocks, cltvBlocksFor_eq]
  · -- the deadline is still ahead, which leaves more than the least number of blocks
    apply max_eq_right
    simp only [blocksIn, escrowPayBy, escrowPayLeadSec, escrowPayWindowSec,
      minEscrowPayWindowSec, deadlineGraceSec, escrowHoldMarginSec, cltvMinBlocks, blockSec]
      at hwindow ⊢
    omega
  · simp only [maxDeadlineLeadSec, deadlineGraceSec, escrowHoldMarginSec, cltvMaxBlocks, blockSec]
      at hle ⊢
    omega

/-! ## Which of them lives longer -/

/-- The escrow is paid so soon after the deposit that the day's blocks are not used up.  Planning
the escrow later than the deposit makes up for as many blocks as are between the two plans. -/
def PaidSoonEnough (deadline base offset : ℤ) (deposit escrow : HoldRow)
    (depositPaidAt escrowPaidAt : ℤ) : Prop :=
  heightAt base offset escrowPaidAt - heightAt base offset depositPaidAt <
    max (cltvMinBlocks : ℤ) (blocksIn (escrowSpan deadline deposit) + 144) -
      blocksIn (escrowSpan deadline escrow)

/-- **When a deposit outlives the escrow.**  For the customer's deposit and the sponsor's, whenever
they are planned and paid: the deposit expires above the escrow if and only if the escrow is paid
soon enough. -/
theorem deposit_outlives_escrow_iff {depositPaidAt escrowPaidAt : ℤ}
    (hterms : TermsTaken deadline requestedAt)
    (hdeposit : DepositPlan deadline deposit) (hd : requestedAt ≤ deposit.createdAt)
    (hescrow : EscrowPlan deadline escrow) (he : requestedAt ≤ escrow.createdAt) :
    escrow.expiryAt base offset escrowPaidAt < deposit.expiryAt base offset depositPaidAt ↔
      PaidSoonEnough deadline base offset deposit escrow depositPaidAt escrowPaidAt := by
  unfold HoldRow.expiryAt PaidSoonEnough
  rw [hdeposit.cltvBlocks hterms hd, hescrow.cltvBlocks hterms he]
  constructor
  · intro h
    omega
  · intro h
    omega

/-- An escrow that is paid no later than twenty minutes before its day is over is outlived by a
deposit that was planned first: rounding costs no more than two blocks. -/
theorem paidSoonEnough_of_early {depositPaidAt escrowPaidAt : ℤ}
    (hplanned : deposit.createdAt ≤ depositPaidAt)
    (hpaid : escrowPaidAt + 20 * 60 < escrow.createdAt + escrowPayWindowSec) :
    PaidSoonEnough deadline base offset deposit escrow depositPaidAt escrowPaidAt := by
  simp only [PaidSoonEnough, heightAt, blocksIn, escrowSpan, escrowPayWindowSec, blockSec] at hpaid ⊢
  omega

end Plans

/-! ## A trade in which the escrow lives longer -/

/-- The deposit of the sponsor in the sample trade. -/
def sampleDeposit : Hash := "lnpay/preimage/v1/ln-sponsor-deposit/ord1/" ++ samplePubkey 'b' ++ "/0"

/-- A claim with a deposit, at the time zero: it waits for a price. -/
def depositOpening : List LnInput :=
  [.configSet { defaultLnSettings with sponsorDepositPct := 5 },
    .request .orderRequest
      (sampleEvent 'a' samplePubkey_a [["price", "10000"], ["deadline", "100000"]]) none,
    .request .claim (sampleEvent 'b' samplePubkey_b []) none]

/-- The deposit is planned at once, paid after half a minute, and seen; a minute after the claim the
order waits for its approval. -/
def depositPaid : List LnInput :=
  depositOpening ++
  [.clock none (some (10 ^ 8)), .start (.holdCreate sampleDeposit), .serve .none "", .resume,
    .serve .none "lnbc-deposit", .resume, .tick 30, .accept sampleDeposit 605,
    .poll sampleDeposit, .observe, .tick 30]

/-- The deposit of that claim, as it is planned at the time zero. -/
def sampleDepositRow : HoldRow :=
  HoldPlan.row ⟨.lnSponsorDeposit, "ord1", samplePubkey 'b', 500, 900, 605⟩ sampleDeposit 0 0

/-- The escrow, as the approval plans it a minute later. -/
def sampleEscrowRow : HoldRow :=
  HoldPlan.row ⟨.lnEscrow, "ord1", samplePubkey 'a', 10050, 86460, 461⟩ sampleEscrow 0 60

theorem planned_of_toOption {α : Type} {tx : Except Abort α} {a : α} (h : tx.toOption = some a) :
    tx = .ok a := by
  cases tx with
  | error => cases h
  | ok b => exact congrArg Except.ok (Option.some.inj h)

theorem termsTaken_sample : TermsTaken 100000 0 :=
  ⟨⟨sampleEnv, 0, none⟩, "ord1", some 10000, LnDb.empty, rfl, by decide⟩

theorem depositPlan_sample : DepositPlan 100000 sampleDepositRow := by
  have hrun : (sampleRun depositOpening).any (fun w => (getOrder "ord1" w.db).any fun o =>
      (o.deadline = 100000 ∧ w.db.holds.find sampleDeposit = none) &&
      ((⟨sampleEnv, 0, some (10 ^ 8)⟩ : LnCtx).planSponsorDeposit o 5 w.db).toOption.any fun db =>
        db.holds.find sampleDeposit = some sampleDepositRow) = true := by decide +kernel
  simp only [Option.any_eq_true, Bool.and_eq_true, decide_eq_true_eq] at hrun
  obtain ⟨w, -, o, -, ⟨hd, hnone⟩, hplan⟩ := hrun
  obtain ⟨db, hplan, hrow⟩ := hplan
  exact .sponsor (planned_of_toOption hplan) ⟨hnone, hrow⟩ hd

theorem escrowPlan_sample : EscrowPlan 100000 sampleEscrowRow := by
  have hrun : (sampleRun depositPaid).any (fun w => (getOrder "ord1" w.db).any fun o =>
      (o.deadline = 100000 ∧ w.db.holds.find sampleEscrow = none) &&
      ((⟨sampleEnv, 60, some (10 ^ 8)⟩ : LnCtx).approve o w.db).toOption.any fun r =>
        r.1 = none ∧ r.2.holds.find sampleEscrow = some sampleEscrowRow) = true := by decide +kernel
  simp only [Option.any_eq_true, Bool.and_eq_true, decide_eq_true_eq] at hrun
  obtain ⟨w, -, o, -, ⟨hd, hnone⟩, ⟨blocker, db⟩, happrove, rfl, hrow⟩ := hrun
  exact ⟨_, o, w.db, db, hd, planned_of_toOption happrove, hnone, hrow⟩

/-- **The day is used up.**  The deposit is paid within its quarter of an hour and the claim approved
at once; the escrow is paid at the end of its day, and expires a block above the deposit. -/
theorem escrow_outlives_deposit :
    ¬ ∀ (deadline requestedAt base offset : ℤ) (deposit escrow : HoldRow)
      (depositPaidAt escrowPaidAt : ℤ), TermsTaken deadline requestedAt →
      DepositPlan deadline deposit → requestedAt ≤ deposit.createdAt →
      EscrowPlan deadline escrow → requestedAt ≤ escrow.createdAt →
      deposit.createdAt ≤ depositPaidAt → depositPaidAt ≤ deposit.payBy →
      depositPaidAt ≤ escrow.createdAt →
      escrow.createdAt ≤ escrowPaidAt → escrowPaidAt ≤ escrow.payBy →
      escrow.expiryAt base offset escrowPaidAt < deposit.expiryAt base offset depositPaidAt := by
  intro h
  have hlt := h 100000 0 0 540 sampleDepositRow sampleEscrowRow 30 86460 termsTaken_sample
    depositPlan_sample (by decide) escrowPlan_sample (by decide) (by decide) (by decide) (by decide)
    (by decide) (by decide)
  revert hlt
  decide

/-- With the escrow paid an hour earlier the deposit outlives it. -/
theorem deposit_outlives_escrow_iff_sample :
    sampleEscrowRow.expiryAt 0 540 82860 < sampleDepositRow.expiryAt 0 540 30 := by
  refine (deposit_outlives_escrow_iff termsTaken_sample depositPlan_sample (by decide)
    escrowPlan_sample (by decide)).mpr ?_
  exact paidSoonEnough_of_early (by decide) (by decide)

end LnPay
