/-
# What the explorer says (`shared/src/onchain/chain.ts`, `daemon/src/onchain/funding.ts`)

A query is answered or is not, and "not known" is never "not there".  An answer
about an address or a transaction is put together from two requests: the thing
itself and the height of the tip, which may come from different backends.

  UTXO list, tip ─→ funds of the address ─→ verdict on the funding
                                        └→ state of the pinned outpoint
-/
import LnPay.OcOrder

namespace LnPay

/-- `ChainQuery`. -/
inductive Query (α : Type)
  | known (value : α)
  | unknown (reason : String)
  deriving DecidableEq

/-! ## Answers of the explorer -/

/-- An entry of the UTXO list; the height is there when it is confirmed. -/
structure RawUtxo where
  txid : String
  vout : ℕ
  valueSat : ℚ
  blockHeight : Option ℕ
  deriving DecidableEq

/-- An answer about a transaction.  `notFound` is said by the explorer itself. -/
inductive TxAnswer
  | found (confirmed : Bool) (blockHeight : Option ℕ)
  | notFound
  | unknown (reason : String)
  deriving DecidableEq

/-- An answer about the spending of an output, with the witness if it could be read. -/
inductive SpendInfo
  | unspent
  | spent (txid : String) (confirmed : Bool) (witness : Option (List String))
  deriving DecidableEq

/-- The answers to the requests that are made for one order. -/
structure ChainAnswers where
  utxos : Query (List RawUtxo)
  tip : Query ℕ
  outspend : Query SpendInfo
  fundingTx : TxAnswer
  fundingTip : Query ℕ
  settlementTx : TxAnswer
  settlementTip : Query ℕ
  deriving DecidableEq

/-! ## The adapter -/

/-- `ChainUtxo`. -/
structure ChainUtxo where
  txid : String
  vout : ℕ
  valueSat : ℚ
  confirmations : ℕ
  deriving DecidableEq

/-- The outpoint of an output. -/
def ChainUtxo.outpoint (u : ChainUtxo) : Outpoint := ⟨u.txid, u.vout⟩

/-- `AddressFunds`. -/
structure AddressFunds where
  confirmed : List ChainUtxo
  mempool : List ChainUtxo
  deriving DecidableEq

/-- `TxStatus`. -/
structure TxStatus where
  seen : Bool
  confirmed : Bool
  confirmations : ℕ
  deriving DecidableEq

/-- An entry of the list counted from a tip; a tip below its block gives none. -/
def RawUtxo.counted (tip : ℕ) (u : RawUtxo) : ChainUtxo :=
  ⟨u.txid, u.vout, u.valueSat, (u.blockHeight.map fun h => tip + 1 - h).getD 0⟩

/-- `getTipHeight`: a height that is not positive is none. -/
def getTipHeight (tip : Query ℕ) : Query ℕ :=
  match tip with
  | .unknown reason => .unknown reason
  | .known height => if 0 < height then .known height else .unknown s!"팁 높이가 비정상이다: {height}"

/-- `getAddressFunds`: without the tip there is nothing to count from. -/
def getAddressFunds (utxos : Query (List RawUtxo)) (tip : Query ℕ) : Query AddressFunds :=
  match utxos, getTipHeight tip with
  | .unknown reason, _ => .unknown reason
  | _, .unknown reason => .unknown reason
  | .known us, .known tip => .known
    { confirmed := (us.filter fun u => u.blockHeight.isSome).map (RawUtxo.counted tip)
      mempool := (us.filter fun u => u.blockHeight.isNone).map (RawUtxo.counted tip) }

/-- `getTxStatus`. -/
def getTxStatus (tx : TxAnswer) (tip : Query ℕ) : Query TxStatus :=
  match tx, getTipHeight tip with
  | .notFound, _ => .known ⟨false, false, 0⟩
  | .unknown reason, _ => .unknown reason
  | .found _ _, .unknown reason => .unknown reason
  | .found false _, .known _ => .known ⟨true, false, 0⟩
  | .found true none, .known _ => .unknown "confirmed인데 block_height가 없다"
  | .found true (some h), .known tip => .known ⟨true, true, tip + 1 - h⟩

/-- A known height is the one that was said. -/
theorem getTipHeight_known {tip : Query ℕ} {n : ℕ} :
    getTipHeight tip = .known n ↔ tip = .known n ∧ 0 < n := by
  cases tip with
  | unknown reason => simp [getTipHeight]
  | known height =>
    by_cases hpos : 0 < height
    · simp only [getTipHeight, if_pos hpos, Query.known.injEq]
      constructor
      · rintro rfl
        exact ⟨rfl, hpos⟩
      · exact And.left
    · simp only [getTipHeight, if_neg hpos, reduceCtorEq, Query.known.injEq, false_iff, not_and]
      rintro rfl
      exact hpos

/-! ## Verdicts -/

/-- `FundingVerdict`. -/
inductive FundingVerdict
  | unknown (reason : String)
  | none
  | pending
  | confirming (outpoint : Outpoint) (confirmations : ℕ)
  | funded (outpoint : Outpoint) (confirmations : ℕ)
  | anomaly (reason : String)
  deriving DecidableEq

/-- `judgeFunding`: exactly one confirmed output of exactly the amount. -/
def judgeFunding (funds : Query AddressFunds) (amountSat : ℚ) : FundingVerdict :=
  match funds with
  | .unknown reason => .unknown reason
  | .known funds =>
    match funds.confirmed with
    | [] => if funds.mempool = [] then .none else .pending
    | [utxo] =>
      if utxo.valueSat ≠ amountSat then
        .anomaly s!"금액이 약정({amountSat} sat)과 다르다: {utxo.valueSat} sat"
      else if utxo.confirmations < requiredConfirmations amountSat then
        .confirming utxo.outpoint utxo.confirmations
      else .funded utxo.outpoint utxo.confirmations
    | us => .anomaly s!"컨펌된 UTXO가 {us.length}개다. 정확히 1개여야 한다"

/-- `PinnedFundingState`. -/
inductive PinnedFundingState
  | unknown (reason : String)
  | alive (confirmations : ℕ)
  | shallow (confirmations : ℕ)
  | missing
  deriving DecidableEq

/-- `judgePinnedFunding`: the pinned outpoint only. -/
def judgePinnedFunding (funds : Query AddressFunds) (pinned : Outpoint) (amountSat : ℚ) :
    PinnedFundingState :=
  match funds with
  | .unknown reason => .unknown reason
  | .known funds =>
    match funds.confirmed.find? fun u => u.outpoint = pinned with
    | some u =>
      if requiredConfirmations amountSat ≤ u.confirmations then .alive u.confirmations
      else .shallow u.confirmations
    | none =>
      if funds.mempool.any fun u => u.outpoint = pinned then .shallow 0 else .missing

/-- `strayUtxos`: what is confirmed at the address besides the pinned outpoint. -/
def strayUtxos (funds : AddressFunds) (pinned : Option Outpoint) : List ChainUtxo :=
  funds.confirmed.filter fun u => some u.outpoint ≠ pinned

/-! ## The pinned outpoint -/

/-- `PinnedFacts`. -/
inductive PinnedFacts
  | unknown (reason : String)
  | alive (confirmations : ℕ)
  | shallow (confirmations : ℕ)
  | gone
  | spent (txid : String) (leaf : Option EscrowLeafName) (confirmed : Bool)
  deriving DecidableEq

/-- `leafOfWitness`: the script is the last but one item. -/
def leafOfWitness (witness : Option (List String)) (leaves : List EscrowLeaf) :
    Option EscrowLeafName :=
  match (witness.getD []).reverse with
  | _ :: script :: _ =>
    (leaves.find? fun l => bytesToHex l.script = script.toLower).map EscrowLeaf.name
  | _ => none

/-- `gatherPinnedFacts`: who has spent it, and whether the funding is still there, is asked only
when the list does not have it. -/
def gatherPinnedFacts {P : Type} (lib : BtcSigner P) (order : OnchainOrder)
    (funds : Query AddressFunds) (answers : ChainAnswers) : Except String (Option PinnedFacts) :=
  match parseOutpoint order.fundingOutpoint with
  | none => .ok none
  | some pinned =>
    match judgePinnedFunding funds pinned order.amountSat with
    | .unknown reason => .ok (some (.unknown reason))
    | .alive n => .ok (some (.alive n))
    | .shallow n => .ok (some (.shallow n))
    | .missing =>
      match answers.outspend with
      | .unknown reason => .ok (some (.unknown reason))
      | .known (.spent txid confirmed witness) => do
        let keys : EscrowXonlyKeys := ⟨order.customerXonly.getD "undefined",
          order.sponsorXonly.getD "undefined", order.adminXonly.getD "undefined"⟩
        let descriptor ← deriveEscrowAddress lib keys order.network order.timelockBlocks
        return some (.spent txid (leafOfWitness witness descriptor.leaves) confirmed)
      | .known .unspent =>
        match getTxStatus answers.fundingTx answers.fundingTip with
        | .unknown reason => .ok (some (.unknown reason))
        | .known status =>
          if status.seen = false then .ok (some .gone)
          else if status.confirmed = false then .ok (some (.shallow 0))
          else .ok (some (.unknown "펀딩 tx는 컨펌돼 있는데 UTXO 목록에 없다 (인덱서 지연?)"))

end LnPay
