/-
# How large the bonds are (`daemon/src/onchain/deposit.ts`, `handlers.ts`)

A bond is a percentage of the amount, and never below four settlement fees, so
that the half of it that goes to the other side covers two.  A listing is refused
when its amount is so small that the four fees come to more than three percent.

The fees are those of the moment: the listing is judged by one estimate, and the
bond of a claim is planned days later by another.  When fees have risen, the
floor goes beyond the three percent (`bond_within_iff`).
-/
import LnPay.OcRelease

namespace LnPay

variable {P : Type}

/-! ## Fees and floors -/

/-- `COMPENSATION_SHARE`: what the other side gets of a forfeited bond. -/
def compensationShare : ℚ := 1 / 2

/-- The fee of a settlement of the usual size, in whole sats. -/
def typicalFeeSat (fees : FeeEstimates) : ℤ := ⌈typicalSettlementVsize * fees.halfHour⌉

example : typicalFeeSat ⟨10, 5⟩ = 845 := by decide +kernel

theorem depositFloorSat_eq (feeSat : ℤ) : depositFloorSat feeSat = ((feeSat * 4 : ℤ) : ℚ) := by
  rw [depositFloorSat, show (feeSat : ℚ) * 4 = ((feeSat * 4 : ℤ) : ℚ) by push_cast; rfl,
    Int.ceil_intCast]

/-- The bond, in whole sats. -/
theorem ocDepositSat_eq (amountSat percent : ℚ) (feeSat : ℤ) :
    ocDepositSat amountSat percent (depositFloorSat feeSat) =
      ((max ⌈amountSat * percent / 100⌉ (feeSat * 4) : ℤ) : ℚ) := by
  rw [ocDepositSat, depositFloorSat_eq]
  push_cast
  rfl

theorem toNat_ocDepositSat (amountSat percent : ℚ) (feeSat : ℤ) :
    (((ocDepositSat amountSat percent (depositFloorSat feeSat)).num.toNat : ℕ) : ℤ) =
      max (max ⌈amountSat * percent / 100⌉ (feeSat * 4)) 0 := by
  rw [ocDepositSat_eq, Rat.num_intCast, Int.toNat_eq_max]

/-- Half of a bond covers two fees. -/
theorem bond_covers (amountSat percent : ℚ) (feeSat : ℤ) :
    2 * (feeSat : ℚ) ≤ compensationShare *
      ((ocDepositSat amountSat percent (depositFloorSat feeSat)).num.toNat : ℕ) := by
  have hle : feeSat * 4 ≤
      (((ocDepositSat amountSat percent (depositFloorSat feeSat)).num.toNat : ℕ) : ℤ) := by
    rw [toNat_ocDepositSat]
    exact (le_max_right _ _).trans (le_max_left _ _)
  have hcast : ((feeSat * 4 : ℤ) : ℚ) ≤
      ((ocDepositSat amountSat percent (depositFloorSat feeSat)).num.toNat : ℕ) := by
    exact_mod_cast hle
  push_cast at hcast
  rw [compensationShare]
  linarith

/-- A sponsor's bond is three percent, rounded up, as long as four fees do not come to more. -/
theorem bond_within_iff_fee {amountSat : ℚ} (hpos : 0 < amountSat) (feeSat : ℤ) :
    (((ocDepositSat amountSat sponsorDepositPercent (depositFloorSat feeSat)).num.toNat : ℕ) : ℤ) ≤
        ⌈amountSat * 3 / 100⌉ ↔
      400 * (feeSat : ℚ) < 3 * amountSat + 100 := by
  rw [toNat_ocDepositSat, sponsorDepositPercent]
  have hshare : 0 ≤ ⌈amountSat * 3 / 100⌉ := by positivity
  rw [max_le_iff, max_le_iff, and_iff_left hshare, and_iff_right le_rfl]
  rw [show feeSat * 4 ≤ ⌈amountSat * 3 / 100⌉ ↔ feeSat * 4 - 1 < ⌈amountSat * 3 / 100⌉ by omega,
    Int.lt_ceil]
  push_cast
  constructor
  · intro h
    linarith
  · intro h
    linarith

/-! ## What the handlers plan -/

namespace OcCtx

variable {ctx : OcCtx P} {db db' : OcDb} {event : OcEvent} {answer : OcAnswer}

/-- A plan and its candidate leave one new invoice. -/
theorem hold_of_planned {p : HoldPlan} {inv : HoldRow} {db₁ : OcDb} {c : OcCandidate}
    (hplan : plan ctx.env.keys ctx.now p db = .ok (inv, db₁)) (hput : putCandidate c db₁ = .ok db')
    {h : Hash} {row : HoldRow} (hnew : db.holds.find h = none) (hrow : db'.holds.find h = some row) :
    row = inv := by
  obtain ⟨hash, attempt, holds, -, -, hins, rfl⟩ := plan_spec hplan
  unfold putCandidate at hput
  split at hput
  · cases hput
  · obtain rfl := Except.ok.inj hput
    dsimp only at hrow
    rw [Db.enqueue_holds, KeyedTable.find_insert hins h, hnew] at hrow
    split at hrow
    · exact (Option.some.inj hrow).symm
    · cases hrow

theorem claimInfo_fees {order : OnchainOrder} {sponsorXonly : String} {info : SponsorClaimInfo}
    {fees : FeeEstimates} (h : ctx.claimInfo event order sponsorXonly db = .ok (info, fees)) :
    currentFees ctx.now db = some fees := by
  unfold claimInfo at h
  split at h
  · cases h
  · dsimp only at h
    split at h
    · cases h
    · split at h
      · cases h
      · rename_i fees' hfees
        split at h
        · cases h
        · split at h
          · cases h
          · rw [hfees, (Prod.mk.inj (Except.ok.inj h)).2]

/-- The bond of a claim on a listing that is open to all. -/
theorem ocClaim_bond {row : OcRow} (h : ctx.ocClaim event db = .ok (answer, db'))
    (hrow : getOc row.order.orderId db = some row)
    (hname : extractOrderId event.tags = some row.order.orderId)
    (hpublic : given row.order.designatedSponsor = none) {hash : Hash} {inv : HoldRow}
    (hnew : db.holds.find hash = none) (hinv : db'.holds.find hash = some inv) :
    ∃ fees, currentFees ctx.now db = some fees ∧ inv.purpose = .ocSponsorBond ∧
      inv.amountSat = (ocDepositSat row.order.amountSat sponsorDepositPercent
        (depositFloorSat (typicalFeeSat fees))).num.toNat := by
  obtain rfl | ⟨row', sponsorXonly, info, fees, htaken, hmade⟩ := ocClaim_spec h
  · cases hnew.symm.trans hinv
  · have hid : row.order.orderId = row'.order.orderId :=
      Option.some.inj (hname.symm.trans htaken.named)
    obtain rfl : row = row' := Option.some.inj (hrow.symm.trans (hid ▸ htaken.found))
    obtain ⟨hnamed, -⟩ | ⟨-, inv', db₁, hplan, hput⟩ := hmade
    · rw [hpublic] at hnamed
      exact absurd hnamed Bool.false_ne_true
    · obtain rfl := hold_of_planned hplan hput hnew hinv
      obtain ⟨_, _, _, hrow', -, -, -⟩ := plan_spec hplan
      refine ⟨fees, claimInfo_fees htaken.terms, ?_, ?_⟩
      · rw [hrow']
        rfl
      · rw [hrow']
        rfl

/-- The bond of a listing. -/
theorem ocOrderRequest_bond (h : ctx.ocOrderRequest event db = .ok (answer, db')) {hash : Hash}
    {inv : HoldRow} (hnew : db.holds.find hash = none) (hinv : db'.holds.find hash = some inv) :
    ∃ fees amountSat, currentFees ctx.now db = some fees ∧ inv.purpose = .ocCustomerBond ∧
      inv.amountSat = (ocDepositSat amountSat customerDepositPercent
        (depositFloorSat (typicalFeeSat fees))).num.toNat := by
  obtain rfl | ⟨orderId, info, fees, inv', db₁, -, hfees, hplan, hput⟩ := ocOrderRequest_spec h
  · cases hnew.symm.trans hinv
  · obtain rfl := hold_of_planned hplan hput hnew hinv
    obtain ⟨_, _, _, hrow, -, -, -⟩ := plan_spec hplan
    refine ⟨fees, info.amountSat, hfees, ?_, ?_⟩
    · rw [hrow]
      rfl
    · rw [hrow]
      rfl

end OcCtx

/-! ## Bonds in a run -/

/-- What a request leaves, when there is something new. -/
theorem step_request {env : OcEnv P} {w w' : OcWorld} {action : OcAction} {event : OcEvent}
    {price : Option ℚ} (h : w.step env (.request action event price) = some w') {hash : Hash}
    {inv : HoldRow} (hnew : w.db.holds.find hash = none) (hinv : w'.db.holds.find hash = some inv) :
    ∃ answer db, (w.ctx env price).handleOc action event w.db = .ok (answer, db) ∧
      db.holds.find hash = some inv := by
  obtain rfl := Option.some.inj h
  unfold OcWorld.transact at hinv
  split at hinv
  · rename_i db hdb
    obtain ⟨⟨answer, db₁⟩, hhandle, rfl⟩ := Except.map_eq_ok_iff.mp hdb
    exact ⟨answer, db₁, hhandle, hinv⟩
  · cases hnew.symm.trans hinv

/-- Half of it covers two settlements at the fees of the moment. -/
def CoversFees (w : OcWorld) (inv : HoldRow) : Prop :=
  ∃ fees, currentFees w.now w.db = some fees ∧
    2 * (typicalFeeSat fees : ℚ) ≤ compensationShare * inv.amountSat

/-- A claim on a listing that is open to all, which was listed and has gone on since, and the bond
that is planned for it. -/
structure ClaimsPublic (env : OcEnv P) (w w' : OcWorld) (row : OcRow) (inv : HoldRow) : Prop where
  listed : ∃ w₀ w₁ is, Lists env w₀ w₁ row.order.orderId ∧ (ocSystem env).run w₁ is = some w
  found : getOc row.order.orderId w.db = some row
  open_ : given row.order.designatedSponsor = none
  claimed : ∃ event price, w.step env (.request .claim event price) = some w' ∧
    extractOrderId event.tags = some row.order.orderId
  planned : w.db.holds.find inv.paymentHash = none ∧ w'.db.holds.find inv.paymentHash = some inv

/-- The amount is what was listed. -/
theorem ClaimsPublic.amount_pos {env : OcEnv P} {w w' : OcWorld} {row : OcRow} {inv : HoldRow}
    (h : ClaimsPublic env w w' row inv) : 0 < row.order.amountSat := by
  obtain ⟨w₀, w₁, is, hlists, hrun⟩ := h.listed
  obtain ⟨r, hr, -, hpos⟩ := hlists.amount
  obtain ⟨r', hr', hpos'⟩ := row_of_run (Q := fun r => 0 < r.order.amountSat)
    (fun w i r r' hrow hq => by rw [hrow.amountSat.1]; exact hq) hrun hr hpos
  rw [Option.some.inj (h.found.symm.trans hr')]
  exact hpos'

/-- **How large the bonds are.**  Half of every bond covers two settlements at the fees of the time
it was planned.  The bond of a claim is within three percent of the amount, rounded up, exactly when
four settlements at the fees of the claim do not cost a sat more than three percent. -/
theorem bond_within_iff (env : OcEnv P) :
    (∀ (w w' : OcWorld) (event : OcEvent) (price : Option ℚ) (inv : HoldRow),
      w.step env (.request .orderRequest event price) = some w' →
      w.db.holds.find inv.paymentHash = none → w'.db.holds.find inv.paymentHash = some inv →
      CoversFees w inv) ∧
    ∀ (w w' : OcWorld) (row : OcRow) (inv : HoldRow), ClaimsPublic env w w' row inv →
      CoversFees w inv ∧
      ∃ fees, currentFees w.now w.db = some fees ∧
        ((inv.amountSat : ℤ) ≤ ⌈row.order.amountSat * 3 / 100⌉ ↔
          400 * (typicalFeeSat fees : ℚ) < 3 * row.order.amountSat + 100) := by
  constructor
  · intro w w' event price inv hstep hnew hinv
    obtain ⟨answer, db, hhandle, hfind⟩ := step_request hstep hnew hinv
    have hhandle : (w.ctx env price).ocOrderRequest event w.db = .ok (answer, db) := hhandle
    obtain ⟨fees, amountSat, hfees, -, hamount⟩ := OcCtx.ocOrderRequest_bond hhandle hnew hfind
    refine ⟨fees, hfees, ?_⟩
    rw [hamount]
    exact bond_covers _ _ _
  · intro w w' row inv h
    obtain ⟨event, price, hstep, hname⟩ := h.claimed
    obtain ⟨answer, db, hhandle, hfind⟩ := step_request hstep h.planned.1 h.planned.2
    have hhandle : (w.ctx env price).ocClaim event w.db = .ok (answer, db) := hhandle
    obtain ⟨fees, hfees, -, hamount⟩ :=
      OcCtx.ocClaim_bond hhandle h.found hname h.open_ h.planned.1 hfind
    refine ⟨⟨fees, hfees, ?_⟩, fees, hfees, ?_⟩
    · rw [hamount]
      exact bond_covers _ _ _
    · rw [hamount]
      exact bond_within_iff_fee h.amount_pos _

/-! ## A claim after the fees have risen -/

/-- The sponsor's bond of a claim, of this amount. -/
def claimBond (amountSat : ℕ) : HoldRow :=
  HoldPlan.row ⟨.ocSponsorBond, "trade-1", refundKeys.sponsor, amountSat, 3600, 353⟩
    ("lnpay/preimage/v1/oc-sponsor-bond/trade-1/" ++ refundKeys.sponsor ++ "/0") 0 0

/-- The bond of a claim at fifty times the fees, and at the same ones. -/
def dearBond : HoldRow := claimBond 33800

def fairBond : HoldRow := claimBond 1500

/-- The sale of 50000 sats is listed at one sat per byte, and claimed at these fees with this bond. -/
def claimedAt (fees : FeeEstimates) (bond : HoldRow) : Bool :=
  ((ocSystem bondEnv).run (OcWorld.init 0) [.refreshFees ⟨2, 1⟩]).any fun w =>
    getCandidate customerBond.paymentHash w.db = none &&
    ((w.ctx bondEnv none).ocOrderRequest bondOrder w.db).toOption.any fun a =>
      (getCandidate customerBond.paymentHash a.2).any fun c =>
        c.paymentHash = customerBond.paymentHash && c.orderId = "trade-1" && !c.isSponsor &&
        (w.step bondEnv (.request .orderRequest bondOrder none)).any fun w₀ =>
          getCandidate customerBond.paymentHash w₀.db = some c &&
          getOc "trade-1" w₀.db = none &&
          (w₀.step bondEnv (.hook .accepted customerBond)).any fun w₁ =>
            (getOc "trade-1" w₁.db).isSome &&
            ((ocSystem bondEnv).run w₁ [.refreshFees fees]).any fun w₂ =>
              (getOc "trade-1" w₂.db).any (fun row => row.order.orderId = "trade-1" &&
                given row.order.designatedSponsor = none && row.order.amountSat = 50000) &&
              w₂.db.holds.find bond.paymentHash = none &&
              (w₂.step bondEnv (.request .claim bondClaim none)).any fun w₃ =>
                w₃.db.holds.find bond.paymentHash = some bond

/-- Such a claim is one on a public order. -/
theorem claim_of_claimedAt {fees : FeeEstimates} {bond : HoldRow} (hrun : claimedAt fees bond = true) :
    ∃ (w w' : OcWorld) (row : OcRow), ClaimsPublic bondEnv w w' row bond ∧
      row.order.amountSat = 50000 := by
  unfold claimedAt at hrun
  simp only [Option.any_eq_true, Bool.and_eq_true, decide_eq_true_eq, Bool.not_eq_true',
    Option.isSome_iff_exists] at hrun
  obtain ⟨w, hw, hnew, ⟨answer, db'⟩, hrequest, c, hput, ⟨⟨hhash, hid⟩, hcustomer⟩, w₀, hw₀,
    ⟨hcand, hnone⟩, w₁, hw₁, ⟨r₁, hr₁⟩, w₂, hw₂, ⟨⟨row, hrow, ⟨hrowid, hopen⟩, hamount⟩, hfree⟩, w₃,
    hw₃, hplanned⟩ := hrun
  have hinfo : ∃ info blocks, c.info = .customer info blocks := by
    cases hi : c.info with
    | customer info blocks => exact ⟨info, blocks, rfl⟩
    | sponsor info blocks =>
      rw [OcCandidate.isSponsor, hi] at hcustomer
      cases hcustomer
  obtain ⟨info, blocks, hinfo⟩ := hinfo
  have htake : TakesBond bondEnv w₀ w₁ c r₁ := by
    refine ⟨⟨customerBond, hw₁, hhash.symm, hid.symm⟩, hhash ▸ hcand, hid ▸ hr₁, ?_⟩
    rw [if_neg (by rw [hcustomer]; exact Bool.false_ne_true)]
    exact hid ▸ hnone
  have hlists : Lists bondEnv w₀ w₁ "trade-1" :=
    .paid (w.ctx bondEnv none) w.db db' c info.expiration r₁
      (.customer bondOrder answer info blocks (ok_of_toOption hrequest) (hhash ▸ hnew) (hhash ▸ hput)
        hinfo rfl) hcustomer htake hid
  refine ⟨w₂, w₃, row, ?_, hamount⟩
  exact {
    listed := ⟨w₀, w₁, _, hrowid.symm ▸ hlists, hw₂⟩
    found := hrowid.symm ▸ hrow
    open_ := hopen
    claimed := ⟨bondClaim, none, hw₃, by rw [hrowid]; decide⟩
    planned := ⟨hfree, hplanned⟩ }

theorem dear_claim : claimedAt ⟨100, 50⟩ dearBond = true := by
  unfold claimedAt bondEnv tradeEnv tradeLib sampleLib
  rw [samplePayment_eq, sampleSingle_eq]
  decide +kernel

theorem fair_claim : claimedAt ⟨2, 1⟩ fairBond = true := by
  unfold claimedAt bondEnv tradeEnv tradeLib sampleLib
  rw [samplePayment_eq, sampleSingle_eq]
  decide +kernel

/-- The bond is two thirds of the sale. -/
theorem bond_not_within : ¬∀ (w w' : OcWorld) (row : OcRow) (inv : HoldRow),
    ClaimsPublic bondEnv w w' row inv →
    (inv.amountSat : ℤ) ≤ ⌈row.order.amountSat * 3 / 100⌉ := by
  intro hclaim
  obtain ⟨w, w', row, hpublic, hamount⟩ := claim_of_claimedAt dear_claim
  have hle := hclaim w w' row dearBond hpublic
  rw [hamount] at hle
  exact absurd hle (by decide +kernel)

/-- Four settlements at fifty sats per byte cost more than three percent of it, and at one they do
not. -/
theorem bond_within_iff_dear : (∃ (w w' : OcWorld) (row : OcRow),
    ClaimsPublic bondEnv w w' row dearBond ∧ CoversFees w dearBond ∧
    ∃ fees, currentFees w.now w.db = some fees ∧
      ¬400 * (typicalFeeSat fees : ℚ) < 3 * row.order.amountSat + 100) ∧
    ∃ (w w' : OcWorld) (row : OcRow),
      ClaimsPublic bondEnv w w' row fairBond ∧ CoversFees w fairBond ∧
      ∃ fees, currentFees w.now w.db = some fees ∧
        400 * (typicalFeeSat fees : ℚ) < 3 * row.order.amountSat + 100 := by
  constructor
  · obtain ⟨w, w', row, hpublic, hamount⟩ := claim_of_claimedAt dear_claim
    obtain ⟨hcovers, fees, hfees, hiff⟩ := (bond_within_iff bondEnv).2 w w' row dearBond hpublic
    refine ⟨w, w', row, hpublic, hcovers, fees, hfees, fun hlt => ?_⟩
    have hle := hiff.mpr hlt
    rw [hamount] at hle
    exact absurd hle (by decide +kernel)
  · obtain ⟨w, w', row, hpublic, hamount⟩ := claim_of_claimedAt fair_claim
    obtain ⟨hcovers, fees, hfees, hiff⟩ := (bond_within_iff bondEnv).2 w w' row fairBond hpublic
    refine ⟨w, w', row, hpublic, hcovers, fees, hfees, hiff.mp ?_⟩
    rw [hamount]
    decide +kernel

end LnPay
