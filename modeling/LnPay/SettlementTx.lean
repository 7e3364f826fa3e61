/-
# Settlement transactions (`shared/src/onchain/tx.ts`, `verify.ts`, `policy.ts`)

One input, the escrow, and one output.  Both sides build the transaction from
their own records, so a signature of the other side is checked against a
transaction one has built oneself; signatures do not enter the txid.

Amounts are exact: what a transaction can carry in satoshi is below `2^53`.
-/
import LnPay.Escrow

namespace LnPay

variable {P : Type}

/-- `Outpoint`. -/
structure Outpoint where
  txid : String
  vout : ℕ
  deriving DecidableEq, Repr

/-- `SettlementPath`. -/
inductive SettlementPath
  | release
  | refund
  | customerWin
  | sponsorWin
  | timelock
  deriving DecidableEq, Repr

/-- `TX_VERSION`. -/
def txVersion : ℕ := 2

/-- `SEQUENCE_FINAL`. -/
def sequenceFinal : ℕ := 0xffffffff

/-- `DUST_BY_TYPE`, with `DUST_FALLBACK` for the kinds it does not name. -/
def dustByType (kind : String) : ℚ :=
  if kind ∈ ["tr", "wsh", "tr_ns", "tr_ms"] then 330
  else if kind = "wpkh" then 294
  else if kind = "pkh" then 546
  else if kind = "sh" then 540
  else 546

/-- `settlementLeafFor`. -/
def settlementLeafFor : SettlementPath → EscrowLeafName
  | .release => .release
  | .refund | .customerWin => .customerWin
  | .sponsorWin => .sponsorWin
  | .timelock => .timelock

/-- `outputScriptFor`. -/
def outputScriptFor (lib : BtcSigner P) (address : String) (descriptor : EscrowDescriptor) :
    Except String Bytes :=
  (lib.decodeAddress (networkParamsFor descriptor.network) address).map lib.encodeOutScript

/-- `dustThresholdFor`. -/
def dustThresholdFor (lib : BtcSigner P) (address : String) (descriptor : EscrowDescriptor) :
    Except String ℚ :=
  (lib.decodeAddress (networkParamsFor descriptor.network) address).map
    fun decoded => dustByType (lib.typeOf decoded)

/-- `descriptor.leaves.find(l => l.name === name)`. -/
def EscrowDescriptor.leaf (descriptor : EscrowDescriptor) (name : EscrowLeafName) :
    Except String EscrowLeaf :=
  match descriptor.leaves.find? fun l => l.name = name with
  | some leaf => .ok leaf
  | none => .error s!"알 수 없는 리프: {name.text}"

/-- `estimateSettlementVsize`. -/
def estimateSettlementVsize (lib : BtcSigner P) (path : SettlementPath)
    (descriptor : EscrowDescriptor) (destination : String) : Except String ℕ := do
  let leaf ← descriptor.leaf (settlementLeafFor path)
  let spk ← outputScriptFor lib destination descriptor
  let nonWitness := 4 + 1 + 41 + 1 + (9 + spk.length) + 4
  let witness := 1 + leaf.signers.length * 65 + (1 + leaf.script.length) + 98
  -- the marker and the flag count as witness
  let weight := nonWitness * 4 + witness + 2
  return (weight + 3) / 4

/-- `BuildSettlementParams`. -/
structure BuildSettlementParams where
  descriptor : EscrowDescriptor
  outpoint : Outpoint
  valueSat : ℚ
  path : SettlementPath
  destination : String
  feeSat : ℚ
  deriving DecidableEq

/-- `buildSettlementTx`. -/
def buildSettlementTx (lib : BtcSigner P) (params : BuildSettlementParams) :
    Except String BtcTransaction := do
  let d := params.descriptor
  throwUnless (params.valueSat.isInt ∧ 0 < params.valueSat)
    s!"입력 금액이 비정상이다: {params.valueSat}"
  throwUnless (params.feeSat.isInt ∧ 0 ≤ params.feeSat)
    s!"수수료가 비정상이다: {params.feeSat}"
  let outputSat := params.valueSat - params.feeSat
  let dust ← dustThresholdFor lib params.destination d
  throwUnless (dust ≤ outputSat)
    (s!"출력이 dust 이하다: {outputSat} sat < {dust} sat. " ++
      "수수료를 낮추거나 거래 금액을 올려야 한다")
  let leaf ← d.leaf (settlementLeafFor params.path)
  -- by the bytes of the script, not by its place in the list
  let tapLeafScript := d.tapLeafScripts.filter fun e => e.2.dropLast = leaf.script
  throwUnless (tapLeafScript.length = 1)
    s!"리프 {leaf.name.text}의 서명 메타를 찾지 못했다 ({tapLeafScript.length}개)"
  let script ← outputScriptFor lib params.destination d
  return {
    version := txVersion
    lockTime := 0
    inputs := [{
      txid := some params.outpoint.txid
      index := some params.outpoint.vout
      sequence := if params.path = .timelock then d.timelockBlocks.num.toNat else sequenceFinal
      witnessUtxo := some (d.payment.script, params.valueSat.num.toNat)
      tapLeafScript := tapLeafScript
      tapInternalKey := some d.payment.tapInternalKey
      tapMerkleRoot := some d.payment.tapMerkleRoot
      tapScriptSig := [] }]
    outputs := [⟨some script, some outputSat.num.toNat⟩] }

/-- Puts signatures into input 0. -/
def BtcTransaction.addSigs (tx : BtcTransaction) (sigs : List ((String × Bytes) × Bytes)) :
    BtcTransaction :=
  { tx with inputs := tx.inputs.modifyHead fun i => { i with tapScriptSig := i.tapScriptSig ++ sigs } }

/-- `signSettlement`: with a key of the leaf, or not at all. -/
def signSettlement (lib : BtcSigner P) (tx : BtcTransaction) (privkey : Bytes) :
    Except String BtcTransaction :=
  match lib.signIdx privkey tx with
  | .ok sigs => .ok (tx.addSigs sigs)
  | .error why => .error s!"이 리프에 서명할 수 없다 — 키가 스크립트에 없거나 경로가 틀렸다 ({why})"

/-- `tapScriptSigOf`, for one leaf. -/
def tapScriptSigOf (lib : BtcSigner P) (tx : BtcTransaction) (xonlyHex : String) (leafScript : Bytes) :
    Option Bytes :=
  (tx.inputs.head?.bind fun i =>
    i.tapScriptSig.find? fun e => e.1 = (xonlyHex, lib.tapLeafHash leafScript)).map (·.2)

/-- `addTapScriptSig`. -/
def addTapScriptSig (lib : BtcSigner P) (tx : BtcTransaction) (leafScript : Bytes)
    (signerXonlyHex : String) (sig : Bytes) : Except String BtcTransaction :=
  if ¬ isHex64 signerXonlyHex then .error "x-only hex가 아니다"
  else .ok (tx.addSigs [((signerXonlyHex, lib.tapLeafHash leafScript), sig)])

/-- `outputAddressOf`. -/
def outputAddressOf (lib : BtcSigner P) (tx : BtcTransaction) (descriptor : EscrowDescriptor) :
    Option String :=
  (tx.outputs.head?.bind (·.script)).bind fun script =>
    ((lib.decodeOutScript script).bind
      (lib.encodeAddress (networkParamsFor descriptor.network))).toOption

/-- `MAX_SANE_SETTLEMENT_FEERATE`. -/
def maxSaneSettlementFeerate : ℚ := 1000

/-! ## Sizes -/

/-- The bytes of a length in front of data. -/
def compactSize (n : ℕ) : ℕ :=
  if n < 253 then 1 else if n < 2 ^ 16 then 3 else if n < 2 ^ 32 then 5 else 9

/-- The virtual size of a transaction once every input is finished through its first leaf, with that
many signatures of 64 bytes. -/
def BtcTransaction.signedVsize (tx : BtcTransaction) (sigs : ℕ) : ℕ :=
  let output (o : TxOutput) : ℕ :=
    8 + compactSize (o.script.getD []).length + (o.script.getD []).length
  let stripped := 4 + compactSize tx.inputs.length + 41 * tx.inputs.length +
    compactSize tx.outputs.length + (tx.outputs.map output).sum + 4
  let witness (i : TxInput) : ℕ := match i.tapLeafScript.head? with
    | some (controlBlock, script) => compactSize (sigs + 2) + sigs * 65 +
        (compactSize (script.length - 1) + (script.length - 1)) +
        (compactSize controlBlock.length + controlBlock.length)
    | none => 1
  (4 * stripped + (2 + (tx.inputs.map witness).sum) + 3) / 4

/-- The control block of a leaf two steps below the root is 33 bytes and 32 for each step. -/
def BtcSigner.ControlBlocks (lib : BtcSigner P) : Prop :=
  ∀ key a b c d net payment scripts,
    lib.p2tr key (some (.branch (.branch (.leaf a) (.leaf b)) (.branch (.leaf c) (.leaf d)))) net =
      .ok payment → payment.tapLeafScript = some scripts → ∀ e ∈ scripts, e.1.length = 97

/-! ## Presignatures -/

/-- An amount in a text. -/
def amountText : Option ℕ → String
  | some n => toString n
  | none => "undefined"

/-- `describeMismatch`. -/
def describeMismatch (mine theirs : BtcTransaction) : String :=
  let mineIn := mine.inputs.head?
  let theirsIn := theirs.inputs.head?
  let mineOut := mine.outputs.head?
  let theirsOut := theirs.outputs.head?
  let parts :=
    (if (mineIn.bind (·.txid)).getD "" ≠ (theirsIn.bind (·.txid)).getD "" ∨
        mineIn.bind (·.index) ≠ theirsIn.bind (·.index) then ["소모하는 UTXO가 다르다"] else []) ++
    (if mineOut.bind (·.amount) ≠ theirsOut.bind (·.amount) then
      [s!"금액이 다르다 (기대 {amountText (mineOut.bind (·.amount))}, " ++
        s!"받음 {amountText (theirsOut.bind (·.amount))})"] else []) ++
    (if (mineOut.bind (·.script)).getD [] ≠ (theirsOut.bind (·.script)).getD [] then
      ["받는 주소가 다르다"] else []) ++
    (if mineIn.map (·.sequence) ≠ theirsIn.map (·.sequence) then
      [s!"nSequence가 다르다 (기대 {amountText (mineIn.map (·.sequence))}, " ++
        s!"받음 {amountText (theirsIn.map (·.sequence))})"] else []) ++
    (if mine.version ≠ theirs.version ∨ mine.lockTime ≠ theirs.lockTime then
      ["version/locktime이 다르다"] else [])
  if parts = [] then "기대한 tx가 아니다 (txid 불일치)"
  else "기대한 tx가 아니다 — " ++ ", ".intercalate parts

/-- `verifyPresignature`: the other side has signed the transaction I build, by this leaf. -/
def verifyPresignature (lib : BtcSigner P) (psbtBase64 : String) (expected : BuildSettlementParams)
    (signerXonly : String) : Except String (Bytes × Bytes) := do
  throwUnless (isHex64 signerXonly) "서명자 키 형식이 x-only hex가 아니다"
  let mine ← (buildSettlementTx lib expected).mapError fun e => s!"기대 tx를 만들지 못했다: {e}"
  let theirs ← (lib.fromPsbtBase64 psbtBase64).mapError fun e => s!"PSBT를 읽지 못했다: {e}"
  throwUnless (theirs.inputs.length = 1 ∧ theirs.outputs.length = 1)
    (s!"입력 1개·출력 1개여야 한다 (받은 값: 입력 {theirs.inputs.length}, " ++
      s!"출력 {theirs.outputs.length})")
  let theirId ← lib.txid theirs
  let myId ← lib.txid mine
  throwUnless (theirId = myId) (describeMismatch mine theirs)
  let leaf ← expected.descriptor.leaf (settlementLeafFor expected.path)
  match tapScriptSigOf lib theirs signerXonly leaf.script with
  | none => .error "그 키의 서명이 PSBT에 없다"
  | some sig => do
    throwUnless (sig.length = 64) s!"서명 길이가 64가 아니다: {sig.length}"
    let msg ← (lib.sighash mine expected.descriptor.payment.script expected.valueSat.num.toNat
      leaf.script).mapError fun e => s!"sighash를 계산하지 못했다: {e}"
    let key ← hexToBytes signerXonly
    let valid ← (lib.schnorrVerify sig msg key).mapError fun e => s!"서명 검증이 실패했다: {e}"
    throwUnless (valid = true) "서명이 이 tx에 대한 것이 아니다"
    return (sig, leaf.script)

end LnPay
