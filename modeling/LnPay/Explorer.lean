/-
# The explorer over HTTP (`shared/src/onchain/chain.ts`)

`OcChain` starts from answers that are already read.  Here they are read: a
request comes back with a status and a body or fails, the body is JSON or plain
text, and every field of it may be missing or of another type.

  outcome ─→ `request` ─→ fields of the JSON ─→ `ChainQuery`

A query may also throw, where the source looks into a value it has not checked.
-/
import LnPay.OcChain

namespace LnPay

namespace Explorer

/-! ## Values of the language -/

/-- A number that a JSON text can give: what is too large for a double is infinite. -/
inductive Num
  | negInf
  | finite (q : ℚ)
  | posInf
  deriving DecidableEq

/-- The values of `JSON.parse`. -/
inductive Json
  | null
  | bool (b : Bool)
  | num (n : Num)
  | str (s : String)
  | arr (items : List Json)
  | obj (fields : List (String × Json))

/-- The functions of the language that the adapter hands a body to.  A `number` that is `none` is
`NaN`; both it and `text` throw on an object that has no primitive value. -/
structure Language where
  parse : String → Option Json
  trim : String → String
  number : Json → Except String (Option Num)
  text : Json → Except String String

/-- `value?.key`. -/
def Json.field : Json → String → Option Json
  | .obj fields, key => fields.lookup key
  | _, _ => none

/-- `value?.key?.key'`. -/
def Json.field₂ (value : Json) (key key' : String) : Option Json :=
  (value.field key).bind fun v => v.field key'

/-- `typeof value === 'string'`. -/
def asString : Option Json → Option String
  | some (.str s) => some s
  | _ => none

/-- `typeof value === 'number'`. -/
def asNumber : Option Json → Option Num
  | some (.num n) => some n
  | _ => none

/-- `typeof value === 'boolean'`. -/
def asBoolean : Option Json → Option Bool
  | some (.bool b) => some b
  | _ => none

@[simp] theorem asString_eq_some {v : Option Json} {s : String} :
    asString v = some s ↔ v = some (.str s) := by
  rcases v with _ | (_ | _ | _ | _ | _ | _) <;> simp [asString]

@[simp] theorem asNumber_eq_some {v : Option Json} {n : Num} :
    asNumber v = some n ↔ v = some (.num n) := by
  rcases v with _ | (_ | _ | _ | _ | _ | _) <;> simp [asNumber]

@[simp] theorem asBoolean_eq_some {v : Option Json} {b : Bool} :
    asBoolean v = some b ↔ v = some (.bool b) := by
  rcases v with _ | (_ | _ | _ | _ | _ | _) <;> simp [asBoolean]

/-! ## Requests -/

/-- What comes of one request: an answer, or a thrown error, the timeout among them. -/
inductive Outcome
  | answered (status : ℕ) (body : String)
  | failed (message : String)

/-- The outcomes of the requests of one query, by path. -/
abbrev Net := String → Outcome

/-- `RawQuery`. -/
inductive RawQuery
  | known (value : Json)
  | unknown (reason : String) (httpStatus : Option ℕ) (body : Option String)

/-- `MempoolChainAdapter.request`: a body that is no JSON is taken as the text it is. -/
def request (js : Language) (net : Net) (path : String) : RawQuery :=
  match net path with
  | .failed message => .unknown message none none
  | .answered status text =>
    if 200 ≤ status ∧ status ≤ 299 then .known ((js.parse text).getD (.str (js.trim text)))
    else .unknown s!"{path} → {status} {text.take 200}" (some status) (some text)

/-- `TX_NOT_FOUND` in the body of a 404. -/
def saysNotFound (httpStatus : Option ℕ) (body : Option String) : Bool :=
  httpStatus = some 404 && (body.getD "").toLower.toList.tails.any fun rest =>
    "transaction not found".toList.isPrefixOf rest

/-! ## The tip -/

/-- `Number.isInteger(height) && height > 0`. -/
def asHeight : Option Num → Option ℕ
  | some (.finite q) => if q.den = 1 ∧ 0 < q then some q.num.toNat else none
  | _ => none

/-- `getTipHeight`. -/
def getTipHeight (js : Language) (net : Net) : Except String (Query ℕ) :=
  match request js net "/blocks/tip/height" with
  | .unknown reason _ _ => .ok (.unknown reason)
  | .known value => do
    match asHeight (← js.number value) with
    | some height => return .known height
    | none => return .unknown s!"팁 높이가 비정상이다: {(← js.text value).take 40}"

/-! ## Funds of an address -/

/-- `ChainUtxo`, with the numbers as they come. -/
structure Utxo where
  txid : String
  vout : Num
  valueSat : Num
  confirmations : Num
  deriving DecidableEq

/-- `AddressFunds`. -/
structure Funds where
  confirmed : List Utxo
  mempool : List Utxo
  deriving DecidableEq

/-- `Math.max(0, tip - height + 1)`. -/
def depth (tip : ℕ) : Num → Num
  | .finite height => .finite (max 0 (tip - height + 1))
  | .posInf => .finite 0
  | .negInf => .posInf

/-- The block an entry is said to be in: `confirmed` with a number for its height. -/
def blockOf (entry : Json) : Option Num :=
  if asBoolean (entry.field₂ "status" "confirmed") = some true then
    asNumber (entry.field₂ "status" "block_height")
  else none

/-- One round of the loop over the list; the flag is `isConfirmed`. -/
def readUtxo (tip : ℕ) (u : Json) : Option (Bool × Utxo) := do
  let txid ← asString (u.field "txid")
  let vout ← asNumber (u.field "vout")
  let value ← asNumber (u.field "value")
  match blockOf u with
  | some height => return (true, ⟨txid, vout, value, depth tip height⟩)
  | none => return (false, ⟨txid, vout, value, .finite 0⟩)

/-- The loop over the list, which ends at the first entry of another shape. -/
def readUtxos (tip : ℕ) : List Json → Option Funds
  | [] => some ⟨[], []⟩
  | u :: us => do
    let (isConfirmed, utxo) ← readUtxo tip u
    let funds ← readUtxos tip us
    if isConfirmed then return ⟨utxo :: funds.confirmed, funds.mempool⟩
    else return ⟨funds.confirmed, utxo :: funds.mempool⟩

/-- `getAddressFunds`. -/
def getAddressFunds (js : Language) (net : Net) (address : String) :
    Except String (Query Funds) := do
  let utxoRes := request js net s!"/address/{address}/utxo"
  let tipRes ← getTipHeight js net
  match utxoRes, tipRes with
  | .unknown reason _ _, _ => return .unknown reason
  | .known _, .unknown reason => return .unknown reason
  | .known (.arr us), .known tip =>
    match readUtxos tip us with
    | some funds => return .known funds
    | none => return .unknown "UTXO 응답에 모르는 모양이 섞여 있다"
  | .known _, .known _ => return .unknown "UTXO 응답이 배열이 아니다"

/-! ## State of a transaction -/

/-- `TxStatus`. -/
structure Status where
  seen : Bool
  confirmed : Bool
  confirmations : Num
  blockHeight : Option Num
  deriving DecidableEq

/-- `getTxStatus`. -/
def getTxStatus (js : Language) (net : Net) (txid : String) : Except String (Query Status) := do
  let txRes := request js net s!"/tx/{txid}"
  let tipRes ← getTipHeight js net
  match txRes, tipRes with
  | .unknown reason httpStatus body, _ =>
    if saysNotFound httpStatus body then return .known ⟨false, false, .finite 0, none⟩
    else return .unknown reason
  | .known _, .unknown reason => return .unknown reason
  | .known tx, .known tip =>
    match asBoolean (tx.field₂ "status" "confirmed") with
    | none => return .unknown "tx 응답에 status가 없다"
    | some false => return .known ⟨true, false, .finite 0, none⟩
    | some true =>
      match asNumber (tx.field₂ "status" "block_height") with
      | none => return .unknown "confirmed인데 block_height가 없다"
      | some height => return .known ⟨true, true, depth tip height, some height⟩

/-! ## The spending of an output -/

/-- `SpendInfo`; the items of the witness are not looked at. -/
inductive Spend
  | unspent
  | spent (txid : String) (confirmed : Bool) (witness : Option (List Json))

/-- `vin.find(…)`, which throws on a `null` that it meets first. -/
def findInput (outpoint : Outpoint) : List Json → Except String (Option Json)
  | [] => .ok none
  | .null :: _ => .error "Cannot read properties of null (reading 'txid')"
  | v :: vs =>
    if asString (v.field "txid") = some outpoint.txid ∧
        asNumber (v.field "vout") = some (.finite outpoint.vout) then .ok (some v)
    else findInput outpoint vs

/-- The witness of the input that spends the outpoint, where the transaction shows it. -/
def witnessIn (outpoint : Outpoint) (tx : Json) : Except String (Option (List Json)) :=
  match tx.field "vin" with
  | none | some .null => .ok none
  | some (.arr vin) => do
    match (← findInput outpoint vin).bind fun v => v.field "witness" with
    | some (.arr witness) => return some witness
    | _ => return none
  | some _ => .error "vin.find is not a function"

/-- `getSpend`. -/
def getSpend (js : Language) (net : Net) (outpoint : Outpoint) : Except String (Query Spend) :=
  match request js net s!"/tx/{outpoint.txid}/outspend/{outpoint.vout}" with
  | .unknown reason _ _ => .ok (.unknown reason)
  | .known o =>
    match asBoolean (o.field "spent") with
    | none => .ok (.unknown "outspend 응답이 이상하다")
    | some false => .ok (.known .unspent)
    | some true =>
      match (asString (o.field "txid")).filter isHex64 with
      | none => .ok (.unknown "outspend 응답에 txid가 없다")
      | some txid => do
        let witness ← match request js net s!"/tx/{txid}" with
          | .known tx => witnessIn outpoint tx
          | .unknown _ _ _ => .ok none
        let confirmed := asBoolean (o.field₂ "status" "confirmed") = some true
        return .known (.spent txid confirmed witness)

/-! ## Verdicts -/

/-- `confirmations < required`. -/
def Num.below : Num → ℕ → Bool
  | .negInf, _ => true
  | .finite q, n => q < n
  | .posInf, _ => false

/-- `FundingVerdict`. -/
inductive Verdict
  | unknown (reason : String)
  | none
  | pending
  | confirming (utxo : Utxo)
  | funded (utxo : Utxo)
  | anomaly (reason : String)
  deriving DecidableEq

/-- `judgeFunding`. -/
def judgeFunding (funds : Query Funds) (amountSat : ℚ) : Verdict :=
  match funds with
  | .unknown reason => .unknown reason
  | .known funds =>
    match funds.confirmed with
    | [] => if funds.mempool = [] then .none else .pending
    | [utxo] =>
      if utxo.valueSat ≠ .finite amountSat then
        .anomaly s!"금액이 약정({amountSat} sat)과 다르다"
      else if utxo.confirmations.below (requiredConfirmations amountSat) then .confirming utxo
      else .funded utxo
    | us => .anomaly s!"컨펌된 UTXO가 {us.length}개다. 정확히 1개여야 한다"

/-- An output is at the outpoint. -/
def Utxo.isAt (u : Utxo) (o : Outpoint) : Bool := u.txid = o.txid && u.vout = .finite o.vout

/-- `PinnedFundingState` and `PinnedFacts`. -/
inductive Pinned
  | unknown (reason : String)
  | alive (confirmations : Num)
  | shallow (confirmations : Num)
  | missing
  | gone
  | spent (txid : String) (leaf : Option EscrowLeafName) (confirmed : Bool)
  deriving DecidableEq

/-- `judgePinnedFunding`. -/
def judgePinnedFunding (funds : Query Funds) (pinned : Outpoint) (amountSat : ℚ) : Pinned :=
  match funds with
  | .unknown reason => .unknown reason
  | .known funds =>
    match funds.confirmed.find? fun u => u.isAt pinned with
    | some u =>
      if u.confirmations.below (requiredConfirmations amountSat) then .shallow u.confirmations
      else .alive u.confirmations
    | none => if funds.mempool.any fun u => u.isAt pinned then .shallow (.finite 0) else .missing

/-- `leafOfWitness`: a script that is no string throws. -/
def leafOfWitness (witness : Option (List Json)) (leaves : List EscrowLeaf) :
    Except String (Option EscrowLeafName) :=
  match (witness.getD []).reverse with
  | _ :: .str script :: _ =>
    .ok ((leaves.find? fun l => bytesToHex l.script = script.toLower).map EscrowLeaf.name)
  | _ :: _ :: _ => .error "toLowerCase is not a function"
  | _ => .ok none

/-- `gatherPinnedFacts`, with the requests of its two further queries. -/
def gatherPinnedFacts {P : Type} (lib : BtcSigner P) (js : Language) (order : OnchainOrder)
    (funds : Query Funds) (spendNet txNet : Net) : Except String (Option Pinned) :=
  match parseOutpoint order.fundingOutpoint with
  | none => .ok none
  | some pinned =>
    match judgePinnedFunding funds pinned order.amountSat with
    | .missing => do
      match ← getSpend js spendNet pinned with
      | .unknown reason => return some (.unknown reason)
      | .known (.spent txid confirmed witness) =>
        let keys : EscrowXonlyKeys := ⟨order.customerXonly.getD "undefined",
          order.sponsorXonly.getD "undefined", order.adminXonly.getD "undefined"⟩
        let descriptor ← deriveEscrowAddress lib keys order.network order.timelockBlocks
        return some (.spent txid (← leafOfWitness witness descriptor.leaves) confirmed)
      | .known .unspent =>
        match ← getTxStatus js txNet pinned.txid with
        | .unknown reason => return some (.unknown reason)
        | .known status =>
          if status.seen = false then return some .gone
          else if status.confirmed = false then return some (.shallow (.finite 0))
          else return some (.unknown "펀딩 tx는 컨펌돼 있는데 UTXO 목록에 없다 (인덱서 지연?)")
    | judged => .ok (some judged)

end Explorer

end LnPay
