/-
# The escrow address (`shared/src/onchain/hex.ts`, `keys.ts`, `script.ts`, `address.ts`)

A taproot output without a key path and with four leaves:

  release        C CHECKSIGVERIFY S CHECKSIG
  customer-win   A CHECKSIGVERIFY C CHECKSIG
  sponsor-win    A CHECKSIGVERIFY S CHECKSIG
  timelock       N CHECKSEQUENCEVERIFY DROP C CHECKSIG

The bitcoin library is a parameter: what it makes of keys, trees, addresses and
transactions is not read here.  A function of it that throws returns an error
with its message.
-/
import LnPay.InboxEvent
import LnPay.Transaction
import Mathlib.Data.Nat.Digits.Defs
import Mathlib.Data.Rat.Floor

namespace LnPay

/-- A `Uint8Array`. -/
abbrev Bytes := List UInt8

/-! ## Hex -/

/-- `bytesToHex`. -/
def bytesToHex (bytes : Bytes) : String :=
  String.ofList (bytes.flatMap fun b => [Nat.digitChar (b.toNat / 16), Nat.digitChar (b.toNat % 16)])

/-- The value of a hex digit. -/
def hexDigit? (c : Char) : Option ℕ :=
  if '0' ≤ c ∧ c ≤ '9' then some (c.toNat - '0'.toNat)
  else if 'a' ≤ c ∧ c ≤ 'f' then some (c.toNat - 'a'.toNat + 10)
  else if 'A' ≤ c ∧ c ≤ 'F' then some (c.toNat - 'A'.toNat + 10)
  else none

/-- The bytes of pairs of hex digits. -/
def hexPairs : List Char → Option Bytes
  | [] => some []
  | [_] => none
  | a :: b :: cs => do
    let a ← hexDigit? a
    let b ← hexDigit? b
    let rest ← hexPairs cs
    return UInt8.ofNat (16 * a + b) :: rest

/-- `hexToBytes`. -/
def hexToBytes (hex : String) : Except String Bytes :=
  match hexPairs hex.toList with
  | some bytes => .ok bytes
  | none => .error s!"hexToBytes: 16진 문자열이 아니다 (length={hex.length})"

/-! ## Keys -/

/-- `EscrowRole`. -/
inductive EscrowRole
  | customer
  | sponsor
  | admin
  deriving DecidableEq, Repr

/-- The word for a role. -/
def EscrowRole.text : EscrowRole → String
  | .customer => "customer"
  | .sponsor => "sponsor"
  | .admin => "admin"

/-- `EscrowXonlyKeys`. -/
structure EscrowXonlyKeys where
  customer : String
  sponsor : String
  admin : String
  deriving DecidableEq, Repr

/-- `keys[role]`. -/
def EscrowXonlyKeys.of (keys : EscrowXonlyKeys) : EscrowRole → String
  | .customer => keys.customer
  | .sponsor => keys.sponsor
  | .admin => keys.admin

/-- `findDuplicateEscrowKey`: the first pair of roles with one key. -/
def findDuplicateEscrowKey (keys : EscrowXonlyKeys) : Option (EscrowRole × EscrowRole) :=
  [(EscrowRole.customer, EscrowRole.sponsor), (.customer, .admin), (.sponsor, .admin)].find? fun p =>
    keys.of p.1 = keys.of p.2

/-- `assertEscrowKeys`: three keys of the right form, no two the same. -/
def assertEscrowKeys (keys : EscrowXonlyKeys) : Except String Unit :=
  match [EscrowRole.customer, .sponsor, .admin].find? fun role => !isHex64 (keys.of role) with
  | some role => .error s!"에스크로 키 형식 오류: {role.text} (x-only 64자 hex가 아니다)"
  | none =>
    match findDuplicateEscrowKey keys with
    | some dup =>
      .error (s!"에스크로 키 중복: {dup.1.text} = {dup.2.text}. " ++
        "2-of-3 보장이 깨지므로 진행할 수 없다")
    | none => .ok ()

/-! ## Scripts -/

/-- What a leaf script is put together from. -/
inductive ScriptOp
  | push (data : Bytes)
  | number (n : ℕ)
  | checkSigVerify
  | checkSig
  | checkSequenceVerify
  | drop
  deriving DecidableEq, Repr

/-- The bytes of a number, lowest first; a byte is added when the top bit would be the sign. -/
def scriptNumber (n : ℕ) : Bytes :=
  let digits := (Nat.digits 256 n).map UInt8.ofNat
  match digits.getLast? with
  | some top => if 0x80 ≤ top then digits ++ [0] else digits
  | none => []

/-- A push of at most 75 bytes. -/
def scriptPush (data : Bytes) : Bytes := UInt8.ofNat data.length :: data

/-- One entry of a script. -/
def ScriptOp.encode : ScriptOp → Bytes
  | .push data => scriptPush data
  -- small numbers have opcodes of their own
  | .number n => if n = 0 then [0x00] else if n ≤ 16 then [UInt8.ofNat (0x50 + n)]
      else scriptPush (scriptNumber n)
  | .checkSigVerify => [0xad]
  | .checkSig => [0xac]
  | .checkSequenceVerify => [0xb2]
  | .drop => [0x75]

/-- `Script.encode`, for the entries above. -/
def encodeScript (ops : List ScriptOp) : Bytes := ops.flatMap ScriptOp.encode

/-- `EscrowLeafName`. -/
inductive EscrowLeafName
  | release
  | customerWin
  | sponsorWin
  | timelock
  deriving DecidableEq, Repr

/-- The source's words for the leaves. -/
def EscrowLeafName.text : EscrowLeafName → String
  | .release => "release"
  | .customerWin => "customer-win"
  | .sponsorWin => "sponsor-win"
  | .timelock => "timelock"

/-- `EscrowLeaf`. -/
structure EscrowLeaf where
  name : EscrowLeafName
  script : Bytes
  signers : List EscrowRole
  deriving DecidableEq, Repr

/-- `DEFAULT_TIMELOCK_BLOCKS`. -/
def defaultTimelockBlocks : ℚ := 8064

/-- `MAX_TIMELOCK_BLOCKS`. -/
def maxTimelockBlocks : ℚ := 0xffff

/-- `NUMS_INTERNAL_KEY`. -/
def numsInternalKey : String := "50929b74c1a04954b78b4b6035e97a5e078a5a0f28ec96d547bfee9ace803ac0"

/-- `assertTimelock`. -/
def assertTimelock (blocks : ℚ) : Except String Unit :=
  if ¬ blocks.isInt ∨ blocks < 1 ∨ maxTimelockBlocks < blocks then
    .error s!"타임락 블록 수가 범위 밖이다: {blocks} (1 ~ {maxTimelockBlocks})"
  else .ok ()

/-- The script of two signers in a row. -/
def twoSigScript (first second : Bytes) : Bytes :=
  encodeScript [.push first, .checkSigVerify, .push second, .checkSig]

/-- `buildEscrowLeaves`: in this order, which is the shape of the tree. -/
def buildEscrowLeaves (keys : EscrowXonlyKeys) (timelockBlocks : ℚ) :
    Except String (List EscrowLeaf) := do
  assertEscrowKeys keys
  assertTimelock timelockBlocks
  let c ← hexToBytes keys.customer
  let s ← hexToBytes keys.sponsor
  let a ← hexToBytes keys.admin
  return [⟨.release, twoSigScript c s, [.customer, .sponsor]⟩,
    ⟨.customerWin, twoSigScript a c, [.admin, .customer]⟩,
    ⟨.sponsorWin, twoSigScript a s, [.admin, .sponsor]⟩,
    ⟨.timelock, encodeScript [.number timelockBlocks.num.toNat, .checkSequenceVerify, .drop, .push c,
      .checkSig], [.customer]⟩]

/-- A tree of tapscripts. -/
inductive TapTree
  | leaf (script : Bytes)
  | branch (left right : TapTree)
  deriving DecidableEq, Repr

/-- `buildEscrowTree`: balanced, so that all paths have one length. -/
def buildEscrowTree : List EscrowLeaf → Except String TapTree
  | [release, customerWin, sponsorWin, timelock] =>
    .ok (.branch (.branch (.leaf release.script) (.leaf customerWin.script))
      (.branch (.leaf sponsorWin.script) (.leaf timelock.script)))
  | leaves => .error s!"에스크로 트리는 리프가 정확히 4개여야 한다 (받은 값: {leaves.length})"

/-! ## The library -/

/-- `BtcNetworkName`. -/
inductive BtcNetworkName
  | mainnet
  | signet
  | testnet
  | regtest
  deriving DecidableEq, Repr

/-- The source's words for the networks. -/
def BtcNetworkName.text : BtcNetworkName → String
  | .mainnet => "mainnet"
  | .signet => "signet"
  | .testnet => "testnet"
  | .regtest => "regtest"

/-- Address parameters of a network. -/
structure NetworkParams where
  bech32 : String
  pubKeyHash : ℕ
  scriptHash : ℕ
  wif : ℕ
  deriving DecidableEq, Repr

/-- `networkParamsFor`: the form of a signet address is that of testnet. -/
def networkParamsFor : BtcNetworkName → NetworkParams
  | .mainnet => ⟨"bc", 0x00, 0x05, 0x80⟩
  | .signet | .testnet => ⟨"tb", 0x6f, 0xc4, 0xef⟩
  | .regtest => ⟨"bcrt", 0x6f, 0xc4, 0xef⟩

/-- What `p2tr` returns.  An entry of `tapLeafScript` is the control block and the script with the
leaf version behind it. -/
structure TaprootPayment where
  address : Option String
  script : Bytes
  tapInternalKey : Bytes
  tapMerkleRoot : Bytes
  tapLeafScript : Option (List (Bytes × Bytes))
  deriving DecidableEq, Repr

/-- An input of a transaction, as far as a PSBT gives it. -/
structure TxInput where
  txid : Option String
  index : Option ℕ
  sequence : ℕ
  witnessUtxo : Option (Bytes × ℕ)
  tapLeafScript : List (Bytes × Bytes)
  tapInternalKey : Option Bytes
  tapMerkleRoot : Option Bytes
  /-- Signatures, by x-only key and leaf hash. -/
  tapScriptSig : List ((String × Bytes) × Bytes)
  deriving DecidableEq, Repr

/-- An output of a transaction. -/
structure TxOutput where
  script : Option Bytes
  amount : Option ℕ
  deriving DecidableEq, Repr

/-- `Transaction` of the library.  The bytes of a txid are kept in hex. -/
structure BtcTransaction where
  version : ℕ
  lockTime : ℕ
  inputs : List TxInput
  outputs : List TxOutput
  deriving DecidableEq, Repr

/-- The functions of the library that are used.  `P` is the type of decoded addresses. -/
structure BtcSigner (P : Type) where
  /-- `Address(net).decode` -/
  decodeAddress : NetworkParams → String → Except String P
  /-- `Address(net).encode` -/
  encodeAddress : NetworkParams → P → Except String String
  /-- `decoded.type` -/
  typeOf : P → String
  /-- `OutScript.encode` -/
  encodeOutScript : P → Bytes
  /-- `OutScript.decode` -/
  decodeOutScript : Bytes → Except String P
  /-- `p2tr`, with or without a tree -/
  p2tr : Bytes → Option TapTree → NetworkParams → Except String TaprootPayment
  /-- `Transaction.fromPSBT`, from base64 -/
  fromPsbtBase64 : String → Except String BtcTransaction
  /-- `tx.id` -/
  txid : BtcTransaction → Except String String
  /-- `tapLeafHash` -/
  tapLeafHash : Bytes → Bytes
  /-- `tx.preimageWitnessV1` of input 0, for the spent script and amount and for a leaf -/
  sighash : BtcTransaction → Bytes → ℕ → Bytes → Except String Bytes
  /-- `schnorr.verify` -/
  schnorrVerify : Bytes → Bytes → Bytes → Except String Bool
  /-- `tx.signIdx`: the entries it adds to `tapScriptSig` of input 0 -/
  signIdx : Bytes → BtcTransaction → Except String (List ((String × Bytes) × Bytes))
  /-- `n.toLocaleString()` -/
  toLocaleString : ℚ → String

/-! ## Addresses -/

/-- `EscrowDescriptor`. -/
structure EscrowDescriptor where
  address : String
  leaves : List EscrowLeaf
  timelockBlocks : ℚ
  network : BtcNetworkName
  payment : TaprootPayment
  tapLeafScripts : List (Bytes × Bytes)
  deriving DecidableEq

variable {P : Type}

/-- `deriveEscrowAddress`. -/
def deriveEscrowAddress (lib : BtcSigner P) (keys : EscrowXonlyKeys) (network : BtcNetworkName)
    (timelockBlocks : Option ℚ) : Except String EscrowDescriptor := do
  let timelockBlocks := timelockBlocks.getD defaultTimelockBlocks
  let leaves ← buildEscrowLeaves keys timelockBlocks
  let internalKey ← hexToBytes numsInternalKey
  let tree ← buildEscrowTree leaves
  let payment ← lib.p2tr internalKey (some tree) (networkParamsFor network)
  match payment.address.filter (· ≠ "") with
  | none => .error "deriveEscrowAddress: 주소를 만들지 못했다"
  | some address =>
    match payment.tapLeafScript.filter (·.length = leaves.length) with
    | none => .error "deriveEscrowAddress: 리프별 서명 메타가 비었다"
    | some tapLeafScripts => .ok ⟨address, leaves, timelockBlocks, network, payment, tapLeafScripts⟩

/-- `deriveSingleKeyAddress`. -/
def deriveSingleKeyAddress (lib : BtcSigner P) (xonly : String) (network : BtcNetworkName) :
    Except String String :=
  if ¬ isHex64 xonly then .error "단일키 주소: x-only 형식이 아니다"
  else do
    let key ← hexToBytes xonly
    let out ← lib.p2tr key none (networkParamsFor network)
    match out.address.filter (· ≠ "") with
    | some address => .ok address
    | none => .error "단일키 주소를 만들지 못했다"

/-- `addressProblem`. -/
def addressProblem (lib : BtcSigner P) (address : String) (network : BtcNetworkName) :
    Option String :=
  if jsTrim address = "" then some "주소가 비어 있습니다"
  else match lib.decodeAddress (networkParamsFor network) (jsTrim address) with
  | .ok _ => none
  | .error _ => some s!"{network.text} 네트워크의 비트코인 주소가 아닙니다"

/-- Why an address is not the escrow. -/
structure EscrowRefusal where
  reason : String
  derived : Option String
  deriving DecidableEq, Repr

/-- `verifyEscrowAddress`: the address is made again from the keys and compared. -/
def verifyEscrowAddress (lib : BtcSigner P) (keys : EscrowXonlyKeys) (network : BtcNetworkName)
    (timelockBlocks : Option ℚ) (expectedAddress : String) : Except EscrowRefusal EscrowDescriptor :=
  match deriveEscrowAddress lib keys network timelockBlocks with
  | .error e => .error ⟨e, none⟩
  | .ok descriptor =>
    if descriptor.address ≠ expectedAddress then
      .error ⟨"에스크로가 알려준 주소가 내 키로 직접 만든 주소와 다릅니다.", some descriptor.address⟩
    else .ok descriptor

/-! ## What a descriptor says -/

/-- The leaves are those of the keys. -/
theorem buildEscrowLeaves_ok {keys : EscrowXonlyKeys} {blocks : ℚ} {leaves : List EscrowLeaf}
    (h : buildEscrowLeaves keys blocks = .ok leaves) :
    ∃ c s a timelock, hexToBytes keys.customer = .ok c ∧ hexToBytes keys.sponsor = .ok s ∧
      hexToBytes keys.admin = .ok a ∧ leaves =
        [⟨.release, twoSigScript c s, [.customer, .sponsor]⟩,
          ⟨.customerWin, twoSigScript a c, [.admin, .customer]⟩,
          ⟨.sponsorWin, twoSigScript a s, [.admin, .sponsor]⟩,
          ⟨.timelock, timelock, [.customer]⟩] := by
  simp only [buildEscrowLeaves, Except.bind_eq_ok_iff] at h
  obtain ⟨-, -, -, -, c, hc, s, hs, a, ha, hleaves⟩ := h
  exact ⟨c, s, a, _, hc, hs, ha, (Except.ok.inj hleaves).symm⟩

/-- A descriptor keeps what it was made from. -/
theorem deriveEscrowAddress_ok {lib : BtcSigner P} {keys : EscrowXonlyKeys}
    {network : BtcNetworkName} {blocks : Option ℚ} {d : EscrowDescriptor}
    (h : deriveEscrowAddress lib keys network blocks = .ok d) :
    buildEscrowLeaves keys (blocks.getD defaultTimelockBlocks) = .ok d.leaves ∧
      d.network = network ∧ d.payment.tapLeafScript = some d.tapLeafScripts ∧
      ∃ internalKey tree, buildEscrowTree d.leaves = .ok tree ∧
        lib.p2tr internalKey (some tree) (networkParamsFor network) = .ok d.payment := by
  simp only [deriveEscrowAddress, Except.bind_eq_ok_iff] at h
  obtain ⟨leaves, hleaves, internalKey, -, tree, htree, payment, hpay, h⟩ := h
  split at h
  · cases h
  · split at h
    · cases h
    · rename_i scripts hscripts
      obtain rfl := Except.ok.inj h
      exact ⟨hleaves, rfl, (Option.filter_eq_some_iff.mp hscripts).1, internalKey, tree, htree, hpay⟩

/-- A verified address is the one that is derived. -/
theorem verifyEscrowAddress_ok {lib : BtcSigner P} {keys : EscrowXonlyKeys}
    {network : BtcNetworkName} {blocks : Option ℚ} {expected : String} {d : EscrowDescriptor}
    (h : verifyEscrowAddress lib keys network blocks expected = .ok d) :
    deriveEscrowAddress lib keys network blocks = .ok d ∧ d.address = expected := by
  unfold verifyEscrowAddress at h
  split at h
  · cases h
  · rename_i d' hd
    split at h
    · cases h
    · rename_i hsame
      obtain rfl := Except.ok.inj h
      exact ⟨hd, not_not.mp hsame⟩

end LnPay
