/-
# States of an on-chain order (`shared/src/onchain/state-machine.ts`)

  listed → bonded → funded → presigned → remitted → disputed
  bonded, funded, presigned → refunding
  presigned, remitted, disputed, refunding → settling → an end

`funded` and `presigned` go back to `bonded` when the funding is gone.
-/
import Mathlib.Tactic.Common

namespace LnPay

/-- `OnchainState`. -/
inductive OnchainState
  | listed
  | bonded
  | funded
  | presigned
  | remitted
  | disputed
  | refunding
  | settling
  | released
  | refunded
  | sponsorWins
  | customerWins
  | cancelled
  | swept
  deriving DecidableEq, Repr

/-- `ONCHAIN_TRANSITIONS`. -/
def onchainTransitions : OnchainState → List OnchainState
  | .listed => [.bonded, .cancelled]
  | .bonded => [.funded, .refunding, .cancelled]
  | .funded => [.presigned, .refunding, .bonded, .swept]
  | .presigned => [.remitted, .refunding, .settling, .bonded, .swept]
  | .remitted => [.settling, .disputed, .swept]
  | .disputed => [.settling, .swept]
  | .refunding => [.settling, .swept]
  | .settling => [.released, .refunded, .sponsorWins, .customerWins, .swept]
  | .released | .refunded | .sponsorWins | .customerWins | .cancelled | .swept => []

/-- `canOnchainTransition`. -/
def canOnchainTransition (a b : OnchainState) : Bool := b ∈ onchainTransitions a

/-- `isOnchainTerminal`. -/
def isOnchainTerminal (s : OnchainState) : Bool := (onchainTransitions s).isEmpty

/-- `SettlementKind`. -/
inductive SettlementKind
  | release
  | refundReserve
  | refundSponsorTimeout
  | refundCustomerLate
  | refundBondExpired
  | refundAccountDisputed
  | sponsorWin
  | customerWin
  deriving DecidableEq, Repr

/-- `isRefundKind`. -/
def isRefundKind : SettlementKind → Bool
  | .refundReserve | .refundSponsorTimeout | .refundCustomerLate | .refundBondExpired
  | .refundAccountDisputed => true
  | .release | .sponsorWin | .customerWin => false

/-- `OUTCOME_RULES[kind].terminal`. -/
def SettlementKind.terminal : SettlementKind → OnchainState
  | .release => .released
  | .sponsorWin => .sponsorWins
  | .customerWin => .customerWins
  | .refundReserve | .refundSponsorTimeout | .refundCustomerLate | .refundBondExpired
  | .refundAccountDisputed => .refunded

/-- `SignPurpose`. -/
inductive SignPurpose
  | release
  | refund
  | disputeCustomer
  | disputeSponsor
  | rescue
  deriving DecidableEq, Repr

/-- `signPurposeFor`. -/
def signPurposeFor : SettlementKind → SignPurpose
  | .release => .release
  | .sponsorWin => .disputeSponsor
  | .customerWin => .disputeCustomer
  | .refundReserve | .refundSponsorTimeout | .refundCustomerLate | .refundBondExpired
  | .refundAccountDisputed => .refund

/-- `canActOnSignRequest`. -/
def canActOnSignRequest (state : OnchainState) (purpose : SignPurpose)
    (settlementKind : Option SettlementKind) : Bool :=
  match purpose with
  | .rescue => true
  | .release => state = .remitted || state = .disputed
  | .refund => state = .refunding
  | .disputeCustomer => state = .disputed && settlementKind = some .customerWin
  | .disputeSponsor => state = .disputed && settlementKind = some .sponsorWin

end LnPay
