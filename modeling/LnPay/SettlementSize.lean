/-
# The finished settlement and its size (`shared/src/onchain/tx.ts`)

What `finalizeSettlement` leaves in the witness, and the bytes of the transaction
that is sent out:

  version · marker · flag · inputs · outputs · witness · locktime

The library finishes a leaf with two signers itself; the timelock leaf is put
together here.  `estimateSettlementVsize` counts these bytes by hand, before there
is a transaction; `vsize_exact` is that it counts right.
-/
import LnPay.SignSound
import Mathlib.Algebra.BigOperators.Group.List.Basic
import Mathlib.Data.Nat.Digits.Lemmas

namespace LnPay

variable {P : Type}

/-! ## Finishing -/

/-- `finalizeSettlement`: the witness of input 0.  `finalize` is the library's `tx.finalize()`. -/
def finalizeSettlement (finalize : BtcTransaction → Except String (List Bytes)) (tx : BtcTransaction)
    (path : SettlementPath) : Except String (List Bytes) :=
  if path ≠ .timelock then finalize tx
  else
    match tx.inputs.head?.bind (·.tapLeafScript.head?),
        tx.inputs.head?.bind (·.tapScriptSig.head?) with
    | some (controlBlock, scriptWithVersion), some (_, sig) =>
      .ok [sig, scriptWithVersion.dropLast, controlBlock]
    | _, _ => .error "타임락 증인을 만들 재료가 없다 (서명 또는 리프 메타 누락)"

/-- The entry of a key for a leaf among the signatures of an input. -/
def TxInput.sigOf (i : TxInput) (key : String) (leafHash : Bytes) : Option Bytes :=
  (i.tapScriptSig.find? fun e => e.1 = (key, leafHash)).map (·.2)

/-- What goes out has come in. -/
def BtcTransaction.Covered (tx : BtcTransaction) : Prop :=
  (tx.outputs.map fun o => o.amount.getD 0).sum ≤
    (tx.inputs.map fun i => (i.witnessUtxo.map Prod.snd).getD 0).sum

/-- What the library says of `finalize`: a leaf of two signers in a row is finished with both
signatures, that of the second key first, the script and the control block, in a transaction that
spends no more than it has. -/
def BtcSigner.Finalizes (lib : BtcSigner P)
    (finalize : BtcTransaction → Except String (List Bytes)) : Prop :=
  ∀ tx i controlBlock version first second k₁ k₂ sig₁ sig₂, tx.inputs = [i] → tx.Covered →
    isHex64 first = true → isHex64 second = true →
    hexToBytes first = .ok k₁ → hexToBytes second = .ok k₂ →
    i.tapLeafScript = [(controlBlock, twoSigScript k₁ k₂ ++ [version])] →
    i.sigOf first (lib.tapLeafHash (twoSigScript k₁ k₂)) = some sig₁ →
    i.sigOf second (lib.tapLeafHash (twoSigScript k₁ k₂)) = some sig₂ →
    finalize tx = .ok [sig₂, sig₁, twoSigScript k₁ k₂, controlBlock]

/-! ## The bytes -/

/-- A number in so many bytes, lowest first. -/
def littleEndian : ℕ → ℕ → Bytes
  | 0, _ => []
  | k + 1, n => UInt8.ofNat (n % 256) :: littleEndian k (n / 256)

@[simp] theorem length_littleEndian (k n : ℕ) : (littleEndian k n).length = k := by
  induction k generalizing n with
  | zero => rfl
  | succ k ih => rw [littleEndian, List.length_cons, ih]

/-- A length in front of data. -/
def compactSizeBytes (n : ℕ) : Bytes :=
  if n < 253 then [UInt8.ofNat n]
  else if n < 2 ^ 16 then 0xfd :: littleEndian 2 n
  else if n < 2 ^ 32 then 0xfe :: littleEndian 4 n
  else 0xff :: littleEndian 8 n

theorem length_compactSizeBytes (n : ℕ) : (compactSizeBytes n).length = compactSize n := by
  unfold compactSizeBytes compactSize
  split
  · rfl
  · split
    · rw [List.length_cons, length_littleEndian]
    · split <;> rw [List.length_cons, length_littleEndian]

/-- Data with its length in front. -/
def sizedBytes (data : Bytes) : Bytes := compactSizeBytes data.length ++ data

theorem length_sizedBytes {data : Bytes} (h : data.length < 253) :
    (sizedBytes data).length = 1 + data.length := by
  rw [sizedBytes, List.length_append, length_compactSizeBytes, compactSize, if_pos h]

/-- An input: what it spends, no script, the sequence. -/
def TxInput.encode (i : TxInput) : Option Bytes := do
  let txid ← (i.txid.bind fun t => hexPairs t.toList).filter (·.length = 32)
  let index ← i.index
  return txid.reverse ++ littleEndian 4 index ++ sizedBytes [] ++ littleEndian 4 i.sequence

/-- An output: what it is worth and its script. -/
def TxOutput.encode (o : TxOutput) : Option Bytes := do
  let amount ← o.amount
  let script ← o.script
  return littleEndian 8 amount ++ sizedBytes script

/-- The witness of an input. -/
def encodeWitness (stack : List Bytes) : Bytes :=
  compactSizeBytes stack.length ++ stack.flatMap sizedBytes

/-- The inputs and outputs of a transaction. -/
def BtcTransaction.encodeBody (tx : BtcTransaction) : Option Bytes := do
  let inputs ← tx.inputs.mapM TxInput.encode
  let outputs ← tx.outputs.mapM TxOutput.encode
  return compactSizeBytes inputs.length ++ inputs.flatten ++
    (compactSizeBytes outputs.length ++ outputs.flatten)

/-- A transaction without its witnesses. -/
def BtcTransaction.encodeStripped (tx : BtcTransaction) : Option Bytes :=
  tx.encodeBody.map fun body => littleEndian 4 tx.version ++ body ++ littleEndian 4 tx.lockTime

/-- A transaction as it is sent out. -/
def BtcTransaction.encodeFinal (tx : BtcTransaction) (witnesses : List (List Bytes)) : Option Bytes :=
  tx.encodeBody.map fun body => littleEndian 4 tx.version ++ [0x00, 0x01] ++ body ++
    witnesses.flatMap encodeWitness ++ littleEndian 4 tx.lockTime

/-- The virtual size: a byte of the witnesses weighs a quarter. -/
def BtcTransaction.vsize (tx : BtcTransaction) (witnesses : List (List Bytes)) : Option ℕ := do
  let stripped ← tx.encodeStripped
  let final ← tx.encodeFinal witnesses
  return (3 * stripped.length + final.length + 3) / 4

/-! ## Sizes of the parts -/

/-- Pairs of digits, each a byte. -/
theorem length_of_hexPairs {cs : List Char} {bytes : Bytes} (h : hexPairs cs = some bytes) :
    cs.length = 2 * bytes.length := by
  induction cs using hexPairs.induct generalizing bytes with
  | case1 =>
    obtain rfl := Option.some.inj h
    rfl
  | case2 => cases h
  | case3 a b cs ih =>
    simp only [hexPairs, Option.bind_eq_bind, Option.bind_eq_some_iff] at h
    obtain ⟨x, -, y, -, rest, hrest, h⟩ := h
    obtain rfl := Option.some.inj h
    rw [List.length_cons, List.length_cons, List.length_cons, ih hrest]
    omega

theorem hexDigit_of_hexChar {c : Char} (h : c.isDigit = true ∨ ('a' ≤ c ∧ c ≤ 'f')) :
    ∃ n, hexDigit? c = some n := by
  unfold hexDigit?
  rcases h with h | h
  · rw [Char.isDigit, Bool.and_eq_true, decide_eq_true_eq, decide_eq_true_eq] at h
    exact ⟨_, if_pos h⟩
  · split
    · exact ⟨_, rfl⟩
    · exact ⟨_, rfl⟩

/-- An even number of digits makes bytes. -/
theorem hexPairs_of_digits {cs : List Char}
    (h : ∀ c ∈ cs, c.isDigit = true ∨ ('a' ≤ c ∧ c ≤ 'f')) (heven : cs.length % 2 = 0) :
    ∃ bytes, hexPairs cs = some bytes := by
  induction cs using hexPairs.induct with
  | case1 => exact ⟨[], rfl⟩
  | case2 => cases heven
  | case3 a b cs ih =>
    obtain ⟨x, hx⟩ := hexDigit_of_hexChar (h a (by simp))
    obtain ⟨y, hy⟩ := hexDigit_of_hexChar (h b (by simp))
    rw [List.length_cons, List.length_cons] at heven
    obtain ⟨rest, hrest⟩ := ih (fun c hc => h c (by simp [hc])) (by omega)
    exact ⟨UInt8.ofNat (16 * x + y) :: rest, by simp [hexPairs, hx, hy, hrest]⟩

/-- A key is 32 bytes. -/
theorem hexToBytes_of_isHex64 {s : String} (h : isHex64 s = true) :
    ∃ bytes, hexPairs s.toList = some bytes ∧ hexToBytes s = .ok bytes ∧ bytes.length = 32 := by
  simp only [isHex64, Bool.and_eq_true, decide_eq_true_eq, List.all_eq_true, Bool.or_eq_true] at h
  obtain ⟨hlen, hall⟩ := h
  obtain ⟨bytes, hbytes⟩ := hexPairs_of_digits hall (by rw [hlen])
  have hlength := length_of_hexPairs hbytes
  refine ⟨bytes, hbytes, ?_, by omega⟩
  rw [hexToBytes, hbytes]

theorem length_of_hexToBytes {s : String} {bytes : Bytes} (h : isHex64 s = true)
    (hb : hexToBytes s = .ok bytes) : bytes.length = 32 := by
  obtain ⟨bytes', -, hok, hlen⟩ := hexToBytes_of_isHex64 h
  obtain rfl := Except.ok.inj (hb.symm.trans hok)
  exact hlen

/-- Keys that are accepted have the right form. -/
theorem isHex64_of_assertEscrowKeys {keys : EscrowXonlyKeys} {u : Unit}
    (h : assertEscrowKeys keys = .ok u) (role : EscrowRole) : isHex64 (keys.of role) = true := by
  unfold assertEscrowKeys at h
  split at h
  · cases h
  · rename_i hnone
    have hrole := List.find?_eq_none.mp hnone role (by cases role <;> simp)
    simpa using hrole

/-- The script of two signers is 68 bytes. -/
theorem length_twoSigScript {a b : Bytes} (ha : a.length = 32) (hb : b.length = 32) :
    (twoSigScript a b).length = 68 := by
  simp only [twoSigScript, encodeScript, List.flatMap_cons, List.flatMap_nil, ScriptOp.encode,
    scriptPush, List.length_append, List.length_cons, List.length_nil, ha, hb]

/-- A number of at most two bytes takes at most three in a script. -/
theorem length_scriptNumber_le {n : ℕ} (h : n < 2 ^ 16) : (scriptNumber n).length ≤ 3 := by
  have hdigits : (Nat.digits 256 n).length ≤ 2 :=
    (Nat.digits_length_le_iff (by norm_num) n).mpr (by simpa using h)
  unfold scriptNumber
  dsimp only
  split
  · split
    · rw [List.length_append, List.length_map, List.length_singleton]
      omega
    · rw [List.length_map]
      omega
  · exact Nat.zero_le 3

theorem length_encode_number_le {n : ℕ} (h : n < 2 ^ 16) :
    (ScriptOp.number n).encode.length ≤ 4 := by
  have hlen := length_scriptNumber_le h
  rw [ScriptOp.encode]
  split
  · simp
  · split
    · simp
    · rw [scriptPush, List.length_cons]
      omega

/-- The timelock of an escrow is a number of two bytes. -/
theorem timelock_lt_of_buildEscrowLeaves {keys : EscrowXonlyKeys} {blocks : ℚ}
    {leaves : List EscrowLeaf} (h : buildEscrowLeaves keys blocks = .ok leaves) :
    blocks.num.toNat < 2 ^ 16 := by
  simp only [buildEscrowLeaves, Except.bind_eq_ok_iff] at h
  obtain ⟨_, _, _, htimelock, _⟩ := h
  unfold assertTimelock at htimelock
  split at htimelock
  · cases htimelock
  · rename_i hrange
    rw [not_or, not_or, not_not, not_lt, not_lt] at hrange
    obtain ⟨hint, hlow, hhigh⟩ := hrange
    have hcast := natCast_num_of_isInt hint (le_trans zero_le_one hlow)
    have hle : (blocks.num.toNat : ℚ) ≤ 0xffff := hcast ▸ hhigh
    have hnat : blocks.num.toNat ≤ 0xffff := by exact_mod_cast hle
    omega

/-- Every leaf of an escrow is short enough for a length of one byte, and has one signer or two. -/
theorem length_leaf_lt {keys : EscrowXonlyKeys} {blocks : ℚ} {leaves : List EscrowLeaf}
    (h : buildEscrowLeaves keys blocks = .ok leaves) :
    ∀ leaf ∈ leaves, leaf.script.length < 253 := by
  have hblocks := timelock_lt_of_buildEscrowLeaves h
  simp only [buildEscrowLeaves, Except.bind_eq_ok_iff] at h
  obtain ⟨_, hkeys, _, -, c, hc, s, hs, a, ha, hleaves⟩ := h
  have hc := length_of_hexToBytes (isHex64_of_assertEscrowKeys hkeys .customer) hc
  have hs := length_of_hexToBytes (isHex64_of_assertEscrowKeys hkeys .sponsor) hs
  have ha := length_of_hexToBytes (isHex64_of_assertEscrowKeys hkeys .admin) ha
  obtain rfl := Except.ok.inj hleaves
  have hnumber := length_encode_number_le hblocks
  intro leaf hleaf
  simp only [List.mem_cons, List.not_mem_nil, or_false] at hleaf
  obtain rfl | rfl | rfl | rfl := hleaf
  · rw [length_twoSigScript hc hs]
    omega
  · rw [length_twoSigScript ha hc]
    omega
  · rw [length_twoSigScript ha hs]
    omega
  · simp only [encodeScript, List.flatMap_cons, List.flatMap_nil, List.length_append,
      List.length_nil, show (ScriptOp.push c).encode = scriptPush c from rfl, scriptPush,
      List.length_cons, hc, show ScriptOp.checkSequenceVerify.encode = [0xb2] from rfl,
      show ScriptOp.drop.encode = [0x75] from rfl, show ScriptOp.checkSig.encode = [0xac] from rfl]
    omega

/-! ## The finished transaction -/

/-- The signatures of all signers of a leaf, one of 64 bytes each, in the order in which they have
come in. -/
def SignedBy (lib : BtcSigner P) (keys : EscrowXonlyKeys) (leaf : EscrowLeaf)
    (sigs : List ((String × Bytes) × Bytes)) : Prop :=
  ∃ sigOf : EscrowRole → Bytes, (∀ role ∈ leaf.signers, (sigOf role).length = 64) ∧
    sigs.Perm (leaf.signers.map fun role => ((keys.of role, lib.tapLeafHash leaf.script), sigOf role))

/-- The lengths of the output scripts, by the type of the address. -/
def outScriptLength (kind : String) : Option ℕ :=
  if kind ∈ ["tr", "wsh"] then some 34
  else if kind = "wpkh" then some 22
  else if kind = "pkh" then some 25
  else if kind = "sh" then some 23
  else none

/-- What the library makes of an address has the length of its type. -/
def BtcSigner.OutScripts (lib : BtcSigner P) : Prop :=
  ∀ p n, outScriptLength (lib.typeOf p) = some n → (lib.encodeOutScript p).length = n

/-- The destination is an address of a type that is supported. -/
def BtcSigner.Supports (lib : BtcSigner P) (d : EscrowDescriptor) (destination : String) : Prop :=
  ∃ p n, lib.decodeAddress (networkParamsFor d.network) destination = .ok p ∧
    outScriptLength (lib.typeOf p) = some n

theorem outScriptLength_lt {kind : String} {n : ℕ} (h : outScriptLength kind = some n) : n < 253 := by
  unfold outScriptLength at h
  split at h
  · obtain rfl := Option.some.inj h
    omega
  · split at h
    · obtain rfl := Option.some.inj h
      omega
    · split at h
      · obtain rfl := Option.some.inj h
        omega
      · split at h
        · obtain rfl := Option.some.inj h
          omega
        · cases h

/-- An entry is found under its key when no key comes twice. -/
theorem find_of_nodup {α β : Type} [DecidableEq α] {l : List (α × β)} {k : α} {v : β}
    (hnd : (l.map Prod.fst).Nodup) (h : (k, v) ∈ l) : l.find? (fun e => e.1 = k) = some (k, v) := by
  induction l with
  | nil => cases h
  | cons e l ih =>
    rw [List.map_cons, List.nodup_cons] at hnd
    obtain rfl | h := List.mem_cons.mp h
    · rw [List.find?_cons_of_pos (by simp)]
    · have hne : e.1 ≠ k := by
        intro heq
        have hmem : k ∈ l.map Prod.fst := List.mem_map.mpr ⟨(k, v), h, rfl⟩
        exact hnd.1 (heq ▸ hmem)
      rw [List.find?_cons_of_neg (by simp [hne]), ih hnd.2 h]

/-- Two keys of an escrow are not the same. -/
theorem key_ne_of_assertEscrowKeys {keys : EscrowXonlyKeys} {u : Unit}
    (h : assertEscrowKeys keys = .ok u) {r r' : EscrowRole} (hne : r ≠ r') :
    keys.of r ≠ keys.of r' := by
  unfold assertEscrowKeys at h
  split at h
  · cases h
  · split at h
    · cases h
    · rename_i hnone
      have hpairs := List.find?_eq_none.mp hnone
      have hcs := hpairs (.customer, .sponsor) (by simp)
      have hca := hpairs (.customer, .admin) (by simp)
      have hsa := hpairs (.sponsor, .admin) (by simp)
      rw [decide_eq_true_eq] at hcs hca hsa
      cases r <;> cases r'
      all_goals first
        | exact absurd rfl hne
        | assumption
        | exact Ne.symm ‹_›

/-- The bytes of a witness whose items are short. -/
theorem length_encodeWitness {stack : List Bytes} (h : stack.length < 253)
    (hitems : ∀ item ∈ stack, item.length < 253) :
    (encodeWitness stack).length = 1 + (stack.map fun item => 1 + item.length).sum := by
  rw [encodeWitness, List.length_append, length_compactSizeBytes, compactSize, if_pos h,
    List.length_flatMap]
  congr 2
  exact List.map_congr_left fun item hitem => length_sizedBytes (hitems item hitem)

/-- The size of a transaction with one input and one output. -/
theorem BtcTransaction.vsize_single {tx : BtcTransaction} {i : TxInput} {o : TxOutput}
    {input output : Bytes} (stack : List Bytes) (hin : tx.inputs = [i]) (hout : tx.outputs = [o])
    (hi : i.encode = some input) (ho : o.encode = some output) :
    tx.vsize [stack] = some ((3 * (10 + input.length + output.length) +
      (12 + input.length + output.length + (encodeWitness stack).length) + 3) / 4) := by
  have hbody : tx.encodeBody = some (compactSizeBytes 1 ++ input ++ (compactSizeBytes 1 ++ output)) := by
    rw [encodeBody, hin, hout]
    simp [hi, ho]
  have hone : (compactSizeBytes 1).length = 1 := length_compactSizeBytes 1
  rw [vsize, encodeStripped, encodeFinal, hbody]
  simp only [Option.map_some, Option.bind_eq_bind, Option.bind_some, List.length_append,
    length_littleEndian, hone, List.flatMap_cons, List.flatMap_nil, List.append_nil,
    List.length_cons, List.length_nil]
  congr 2
  omega

/-- What a leaf of an escrow is: a script of two signers, or the timelock of the customer. -/
inductive LeafOf (keys : EscrowXonlyKeys) (blocks : ℚ) (leaf : EscrowLeaf) : Prop
  | two (r₁ r₂ : EscrowRole) (k₁ k₂ : Bytes) (hname : leaf.name ≠ .timelock) (hne : r₁ ≠ r₂)
      (hsigners : leaf.signers = [r₁, r₂]) (h₁ : hexToBytes (keys.of r₁) = .ok k₁)
      (h₂ : hexToBytes (keys.of r₂) = .ok k₂) (hscript : leaf.script = twoSigScript k₁ k₂)
  | timelock (k : Bytes) (hname : leaf.name = .timelock) (hsigners : leaf.signers = [.customer])
      (hk : hexToBytes keys.customer = .ok k)
      (hscript : leaf.script = encodeScript
        [.number blocks.num.toNat, .checkSequenceVerify, .drop, .push k, .checkSig])

/-- The named leaf of a derived escrow. -/
theorem leafOf_of_derived {lib : BtcSigner P} {keys : EscrowXonlyKeys} {network : BtcNetworkName}
    {blocks : Option ℚ} {d : EscrowDescriptor} {name : EscrowLeafName} {leaf : EscrowLeaf}
    (hd : deriveEscrowAddress lib keys network blocks = .ok d) (hleaf : d.leaf name = .ok leaf) :
    leaf.name = name ∧ LeafOf keys (blocks.getD defaultTimelockBlocks) leaf ∧
      assertEscrowKeys keys = .ok () ∧ leaf.script.length < 253 := by
  obtain ⟨hleaves, -⟩ := deriveEscrowAddress_ok hd
  have hfind := EscrowDescriptor.leaf_ok hleaf
  have hmem := List.mem_of_find?_eq_some hfind
  have hname : leaf.name = name := by simpa using List.find?_some hfind
  have hlen := length_leaf_lt hleaves leaf hmem
  simp only [buildEscrowLeaves, Except.bind_eq_ok_iff] at hleaves
  obtain ⟨_, hkeys, _, -, c, hc, s, hs, a, ha, hlist⟩ := hleaves
  refine ⟨hname, ?_, hkeys, hlen⟩
  rw [← Except.ok.inj hlist] at hmem
  simp only [List.mem_cons, List.not_mem_nil, or_false] at hmem
  obtain rfl | rfl | rfl | rfl := hmem
  · exact .two .customer .sponsor c s (by simp) (by decide) rfl hc hs rfl
  · exact .two .admin .customer a c (by simp) (by decide) rfl ha hc rfl
  · exact .two .admin .sponsor a s (by simp) (by decide) rfl ha hs rfl
  · exact .timelock c rfl rfl hc rfl

/-- The whole of what has been built. -/
theorem buildSettlementTx_input {lib : BtcSigner P} {p : BuildSettlementParams} {tx : BtcTransaction}
    (h : buildSettlementTx lib p = .ok tx) :
    ∃ i, tx.inputs = [i] ∧ i.txid = some p.outpoint.txid ∧ i.index = some p.outpoint.vout ∧
      i.sequence = (if p.path = .timelock then p.descriptor.timelockBlocks.num.toNat
        else sequenceFinal) ∧ i.tapScriptSig = [] ∧ tx.version = txVersion ∧ tx.lockTime = 0 := by
  simp only [buildSettlementTx, Except.bind_eq_ok_iff, throwUnless_eq_ok_iff] at h
  obtain ⟨-, -, -, -, dust, -, -, -, leaf, -, -, -, script, -, htx⟩ := h
  obtain rfl := Except.ok.inj htx
  exact ⟨_, rfl, rfl, rfl, rfl, rfl, rfl, rfl⟩

theorem settlementLeafFor_eq_timelock {path : SettlementPath} :
    settlementLeafFor path = .timelock ↔ path = .timelock := by
  cases path <;> simp [settlementLeafFor]

theorem isInt_iff {q : ℚ} : q.isInt = true ↔ q.den = 1 := by
  rw [Rat.isInt, beq_iff_eq]

/-- A fee leaves no more than there was. -/
theorem toNat_num_sub_le {value fee : ℚ} (hvalue : value.isInt = true) (hfee : fee.isInt = true)
    (hpos : 0 ≤ fee) : (value - fee).num.toNat ≤ value.num.toNat := by
  have hv : ((value.num : ℤ) : ℚ) = value := (Rat.den_eq_one_iff value).mp (isInt_iff.mp hvalue)
  have hf : ((fee.num : ℤ) : ℚ) = fee := (Rat.den_eq_one_iff fee).mp (isInt_iff.mp hfee)
  have hnum : (value - fee).num = value.num - fee.num := by
    rw [← hv, ← hf, ← Int.cast_sub, Rat.num_intCast, Rat.num_intCast, Rat.num_intCast]
  have hfee' : 0 ≤ fee.num := Rat.num_nonneg.mpr hpos
  omega

/-- What is built spends no more than it has. -/
theorem covered_of_buildSettlementTx {lib : BtcSigner P} {p : BuildSettlementParams}
    {tx : BtcTransaction} (h : buildSettlementTx lib p = .ok tx)
    (sigs : List ((String × Bytes) × Bytes)) : (tx.addSigs sigs).Covered := by
  simp only [buildSettlementTx, Except.bind_eq_ok_iff, throwUnless_eq_ok_iff] at h
  obtain ⟨-, hvalue, -, hfee, dust, -, -, -, leaf, -, -, -, script, -, htx⟩ := h
  obtain rfl := Except.ok.inj htx
  have hle := toNat_num_sub_le hvalue.1 hfee.1 hfee.2
  simpa [BtcTransaction.Covered, BtcTransaction.addSigs] using hle

/-- **What finishing leaves**: the signatures of the leaf's signers, the last first, the script and
the control block. -/
theorem finalize_signed {lib : BtcSigner P} {finalize : BtcTransaction → Except String (List Bytes)}
    (hfin : lib.Finalizes finalize) {keys : EscrowXonlyKeys} {network : BtcNetworkName}
    {blocks : Option ℚ} {p : BuildSettlementParams} {tx : BtcTransaction} {leaf : EscrowLeaf}
    {sigs : List ((String × Bytes) × Bytes)}
    (hd : deriveEscrowAddress lib keys network blocks = .ok p.descriptor)
    (htx : buildSettlementTx lib p = .ok tx)
    (hleaf : p.descriptor.leaf (settlementLeafFor p.path) = .ok leaf)
    (sigOf : EscrowRole → Bytes)
    (hsigs : sigs.Perm
      (leaf.signers.map fun role => ((keys.of role, lib.tapLeafHash leaf.script), sigOf role))) :
    ∃ controlBlock version, (controlBlock, leaf.script ++ [version]) ∈ p.descriptor.tapLeafScripts ∧
      finalizeSettlement finalize (tx.addSigs sigs) p.path =
        .ok ((leaf.signers.map sigOf).reverse ++ [leaf.script, controlBlock]) := by
  obtain ⟨hname, hof, hkeys, -⟩ := leafOf_of_derived hd hleaf
  obtain ⟨leaf', entry, -, -, -, hleaf', hfilter, -, -, -, -, -, -, ⟨i, hin, -, htap⟩, -⟩ :=
    buildSettlementTx_ok htx
  obtain rfl := Except.ok.inj (hleaf.symm.trans hleaf')
  obtain ⟨i', hin', -, -, -, hnosig, -, -⟩ := buildSettlementTx_input htx
  obtain rfl : i = i' := List.singleton_injective (hin.symm.trans hin')
  have hentry : entry ∈ p.descriptor.tapLeafScripts ∧ entry.2.dropLast = leaf.script := by
    have hmem : entry ∈ p.descriptor.tapLeafScripts.filter fun e => e.2.dropLast = leaf.script := by
      rw [hfilter]
      exact List.mem_singleton_self _
    simpa using List.mem_filter.mp hmem
  obtain ⟨controlBlock, scriptWithVersion⟩ := entry
  obtain ⟨hmem, hdrop⟩ := hentry
  have hsigned : (tx.addSigs sigs).inputs = [{ i with tapScriptSig := sigs }] := by
    rw [BtcTransaction.addSigs, hin, List.modifyHead_cons, hnosig, List.nil_append]
  cases hof with
  | two r₁ r₂ k₁ k₂ hnot hne hsigners h₁ h₂ hscript =>
    have hpath : p.path ≠ .timelock := fun heq =>
      hnot (hname.trans (settlementLeafFor_eq_timelock.mpr heq))
    have hlast : scriptWithVersion ≠ [] := by
      rintro rfl
      have hnil : leaf.script = [] := hdrop.symm
      rw [hscript] at hnil
      exact absurd hnil (by simp [twoSigScript, encodeScript, ScriptOp.encode, scriptPush])
    have hsplit : scriptWithVersion = leaf.script ++ [scriptWithVersion.getLast hlast] := by
      rw [← hdrop, List.dropLast_append_getLast hlast]
    refine ⟨controlBlock, scriptWithVersion.getLast hlast, hsplit ▸ hmem, ?_⟩
    rw [hsigners, List.map_cons, List.map_cons, List.map_nil] at hsigs
    have hnd : (sigs.map Prod.fst).Nodup := by
      refine (hsigs.map Prod.fst).nodup_iff.mpr ?_
      simp [key_ne_of_assertEscrowKeys hkeys hne]
    have hfind : ∀ role, role = r₁ ∨ role = r₂ →
        ({ i with tapScriptSig := sigs } : TxInput).sigOf (keys.of role)
          (lib.tapLeafHash (twoSigScript k₁ k₂)) = some (sigOf role) := by
      intro role hrole
      have hin : ((keys.of role, lib.tapLeafHash leaf.script), sigOf role) ∈ sigs := by
        refine hsigs.mem_iff.mpr ?_
        obtain rfl | rfl := hrole <;> simp
      rw [← hscript, TxInput.sigOf, find_of_nodup hnd hin, Option.map_some]
    rw [finalizeSettlement, if_pos hpath, hfin _ _ controlBlock (scriptWithVersion.getLast hlast)
      _ _ k₁ k₂ _ _ hsigned (covered_of_buildSettlementTx htx sigs) (isHex64_of_assertEscrowKeys hkeys r₁)
      (isHex64_of_assertEscrowKeys hkeys r₂) h₁ h₂ (by rw [← hscript, ← hsplit, htap]) (hfind r₁ (.inl rfl))
      (hfind r₂ (.inr rfl)), hsigners, hscript]
    rfl
  | timelock k htimelock hsigners hk hscript =>
    have hpath : p.path = .timelock := settlementLeafFor_eq_timelock.mp (hname.symm.trans htimelock)
    have hlast : scriptWithVersion ≠ [] := by
      rintro rfl
      have hnil : leaf.script = [] := hdrop.symm
      rw [hscript] at hnil
      exact absurd (congrArg List.length hnil)
        (by simp [encodeScript, ScriptOp.encode])
    have hsplit : scriptWithVersion = leaf.script ++ [scriptWithVersion.getLast hlast] := by
      rw [← hdrop, List.dropLast_append_getLast hlast]
    refine ⟨controlBlock, scriptWithVersion.getLast hlast, hsplit ▸ hmem, ?_⟩
    rw [hsigners, List.map_cons, List.map_nil, List.perm_singleton] at hsigs
    rw [finalizeSettlement, if_neg (not_not.mpr hpath), hsigned, hsigners]
    simp only [List.head?_cons, Option.bind_some, htap, hsigs, hdrop]
    rfl

/-- A fee for a rate is no less than the rate, at the estimated size. -/
theorem feerate_le_of_settlementFeeSat {lib : BtcSigner P} {path : SettlementPath}
    {d : EscrowDescriptor} {destination : String} {feerate feeSat : ℚ} {vsize : ℕ}
    (hest : estimateSettlementVsize lib path d destination = .ok vsize)
    (hfee : settlementFeeSat lib path d destination feerate = .ok feeSat) :
    feerate ≤ feeSat / vsize := by
  have hpos := estimateSettlementVsize_pos hest
  simp only [settlementFeeSat, hest, Except.bind_eq_ok_iff, throwUnless_eq_ok_iff] at hfee
  obtain ⟨-, -, n, hn, hfee⟩ := hfee
  obtain rfl := Except.ok.inj hn
  obtain rfl := Except.ok.inj hfee
  rw [le_div_iff₀ (by exact_mod_cast hpos), mul_comm]
  exact Int.le_ceil _

/-- **The estimate is the size.**  For every escrow, every path and every destination of a supported
type, a settlement with the signatures of its leaf's signers is finished and has exactly the virtual
size that was estimated; so a fee for a rate is never below that rate. -/
theorem vsize_exact (lib : BtcSigner P) (finalize : BtcTransaction → Except String (List Bytes))
    (hblocks : lib.ControlBlocks) (hscripts : lib.OutScripts) (hfin : lib.Finalizes finalize)
    (keys : EscrowXonlyKeys) (network : BtcNetworkName) (blocks : Option ℚ)
    (p : BuildSettlementParams) (tx : BtcTransaction) (leaf : EscrowLeaf)
    (sigs : List ((String × Bytes) × Bytes))
    (hd : deriveEscrowAddress lib keys network blocks = .ok p.descriptor)
    (hdest : lib.Supports p.descriptor p.destination) (hid : isHex64 p.outpoint.txid = true)
    (htx : buildSettlementTx lib p = .ok tx)
    (hleaf : p.descriptor.leaf (settlementLeafFor p.path) = .ok leaf)
    (hsigs : SignedBy lib keys leaf sigs) :
    ∃ witness vsize, finalizeSettlement finalize (tx.addSigs sigs) p.path = .ok witness ∧
      estimateSettlementVsize lib p.path p.descriptor p.destination = .ok vsize ∧
      (tx.addSigs sigs).vsize [witness] = some vsize ∧
      ∀ feerate feeSat, settlementFeeSat lib p.path p.descriptor p.destination feerate = .ok feeSat →
        feerate ≤ feeSat / vsize := by
  obtain ⟨-, -, -, hshort⟩ := leafOf_of_derived hd hleaf
  obtain ⟨sigOf, hlen, hperm⟩ := hsigs
  obtain ⟨controlBlock, version, hmem, hfinal⟩ := finalize_signed hfin hd htx hleaf sigOf hperm
  have hblock : controlBlock.length = 97 := controlBlock_of_derived hblocks hd _ hmem
  obtain ⟨leaf', -, script, -, paid, hleaf', -, hscript, -, -, -, -, -, -, hout⟩ :=
    buildSettlementTx_ok htx
  obtain rfl := Except.ok.inj (hleaf.symm.trans hleaf')
  obtain ⟨i, hin, hi, hindex, -⟩ := buildSettlementTx_input htx
  have hspk : script.length < 253 := by
    obtain ⟨address, n, haddress, hn⟩ := hdest
    rw [outputScriptFor, haddress] at hscript
    obtain rfl := Except.ok.inj hscript
    rw [hscripts address n hn]
    exact outScriptLength_lt hn
  have hsigners : leaf.signers.length ≤ 2 := by
    obtain ⟨-, hof, -⟩ := leafOf_of_derived hd hleaf
    cases hof with
    | two r₁ r₂ k₁ k₂ hname hne hsigners h₁ h₂ hscript => rw [hsigners]; exact le_refl 2
    | timelock k hname hsigners hk hscript => rw [hsigners]; exact Nat.le_succ 1
  -- the input is 41 bytes, the output 9 and its script
  have hsigned : (tx.addSigs sigs).inputs = [{ i with tapScriptSig := i.tapScriptSig ++ sigs }] := by
    rw [BtcTransaction.addSigs, hin, List.modifyHead_cons]
  obtain ⟨txid, htxid, -, htxidlen⟩ := hexToBytes_of_isHex64 hid
  have hinput : ({ i with tapScriptSig := i.tapScriptSig ++ sigs } : TxInput).encode =
      some (txid.reverse ++ littleEndian 4 p.outpoint.vout ++ sizedBytes [] ++
        littleEndian 4 i.sequence) := by
    have hfilter : (some txid).filter (fun b => b.length = 32) = some txid :=
      Option.filter_eq_some_iff.mpr ⟨rfl, by simp [htxidlen]⟩
    rw [TxInput.encode, hi, hindex, Option.bind_some, htxid, hfilter]
    rfl
  have houtput : (⟨some script, some paid⟩ : TxOutput).encode =
      some (littleEndian 8 paid ++ sizedBytes script) := rfl
  -- the witness is the signatures, the script and the control block
  have hwitness : (encodeWitness ((leaf.signers.map sigOf).reverse ++ [leaf.script, controlBlock])).length =
      1 + leaf.signers.length * 65 + (1 + leaf.script.length) + 98 := by
    rw [length_encodeWitness]
    · have hsum : ((leaf.signers.map sigOf).map fun item => 1 + item.length).sum =
          leaf.signers.length * 65 := by
        rw [List.map_map, List.sum_eq_card_nsmul _ 65, List.length_map, nsmul_eq_mul, Nat.cast_id]
        intro n hn
        obtain ⟨role, hrole, rfl⟩ := List.mem_map.mp hn
        rw [Function.comp_apply, hlen role hrole]
      rw [List.map_append, List.sum_append, List.map_reverse, List.sum_reverse, hsum]
      simp only [List.map_cons, List.map_nil, List.sum_cons, List.sum_nil, hblock]
      omega
    · rw [List.length_append, List.length_reverse, List.length_map, List.length_cons,
        List.length_singleton]
      omega
    · intro item hitem
      rw [List.mem_append, List.mem_reverse] at hitem
      obtain hitem | hitem := hitem
      · obtain ⟨role, hrole, rfl⟩ := List.mem_map.mp hitem
        rw [hlen role hrole]
        omega
      · rw [List.mem_pair] at hitem
        obtain rfl | rfl := hitem
        · exact hshort
        · omega
  obtain ⟨vsize, hest, hvsize⟩ : ∃ n, estimateSettlementVsize lib p.path p.descriptor p.destination =
      .ok n ∧ n = ((4 + 1 + 41 + 1 + (9 + script.length) + 4) * 4 +
        (1 + leaf.signers.length * 65 + (1 + leaf.script.length) + 98) + 2 + 3) / 4 := by
    refine ⟨_, ?_, rfl⟩
    rw [estimateSettlementVsize, hleaf, hscript]
    rfl
  refine ⟨_, vsize, hfinal, hest, ?_, fun feerate feeSat hfee => ?_⟩
  · rw [BtcTransaction.vsize_single _ hsigned hout hinput houtput, hwitness, hvsize]
    have hempty : (sizedBytes []).length = 1 := rfl
    simp only [List.length_append, List.length_reverse, length_littleEndian, htxidlen,
      length_sizedBytes hspk, hempty, Option.some.injEq]
    omega
  · exact feerate_le_of_settlementFeeSat hest hfee

/-! ### A release -/

/-- A digit is written back as it was read. -/
theorem digitChar_of_hexDigit {c : Char} {n : ℕ} (h : c.isDigit = true ∨ ('a' ≤ c ∧ c ≤ 'f'))
    (hn : hexDigit? c = some n) : n < 16 ∧ Nat.digitChar n = c := by
  have hdigits : ∀ k : Fin 128, ((Char.ofNat k).isDigit = true ∨
      ('a' ≤ Char.ofNat k ∧ Char.ofNat k ≤ 'f')) → (hexDigit? (Char.ofNat k)).any
        (fun n => n < 16 ∧ Nat.digitChar n = Char.ofNat k) = true := by
    decide +kernel
  have hle : c.toNat < 128 := by
    rcases h with h | h
    · rw [Char.isDigit, Bool.and_eq_true, decide_eq_true_eq, decide_eq_true_eq] at h
      exact lt_of_le_of_lt (show c.toNat ≤ 57 from h.2) (by decide)
    · exact lt_of_le_of_lt (show c.toNat ≤ 102 from h.2) (by decide)
  have hc := hdigits ⟨c.toNat, hle⟩
  rw [show Char.ofNat ((⟨c.toNat, hle⟩ : Fin 128) : ℕ) = c from Char.ofNat_toNat c] at hc
  have hc := hc h
  rw [hn, Option.any_some, decide_eq_true_eq] at hc
  exact hc

/-- Pairs of digits are written back as they were read. -/
theorem flatMap_digits_of_hexPairs {cs : List Char} {bytes : Bytes}
    (h : ∀ c ∈ cs, c.isDigit = true ∨ ('a' ≤ c ∧ c ≤ 'f')) (hb : hexPairs cs = some bytes) :
    (bytes.flatMap fun b => [Nat.digitChar (b.toNat / 16), Nat.digitChar (b.toNat % 16)]) = cs := by
  induction cs using hexPairs.induct generalizing bytes with
  | case1 =>
    obtain rfl := Option.some.inj hb
    rfl
  | case2 => cases hb
  | case3 a b cs ih =>
    simp only [hexPairs, Option.bind_eq_bind, Option.bind_eq_some_iff] at hb
    obtain ⟨x, hx, y, hy, rest, hrest, hb⟩ := hb
    obtain rfl := Option.some.inj hb
    obtain ⟨hxlt, hxchar⟩ := digitChar_of_hexDigit (h a (by simp)) hx
    obtain ⟨hylt, hychar⟩ := digitChar_of_hexDigit (h b (by simp)) hy
    have hnat : (UInt8.ofNat (16 * x + y)).toNat = 16 * x + y :=
      UInt8.toNat_ofNat_of_lt (show 16 * x + y < 256 by omega)
    rw [List.flatMap_cons, hnat, ih (fun c hc => h c (by simp [hc])) hrest,
      show (16 * x + y) / 16 = x by omega, show (16 * x + y) % 16 = y by omega, hxchar, hychar]
    rfl

/-- A key is written back as it was read. -/
theorem bytesToHex_of_hexToBytes {s : String} {bytes : Bytes} (h : isHex64 s = true)
    (hb : hexToBytes s = .ok bytes) : bytesToHex bytes = s := by
  obtain ⟨bytes', hpairs, hok, -⟩ := hexToBytes_of_isHex64 h
  obtain rfl := Except.ok.inj (hb.symm.trans hok)
  simp only [isHex64, Bool.and_eq_true, decide_eq_true_eq, List.all_eq_true, Bool.or_eq_true] at h
  rw [bytesToHex, flatMap_digits_of_hexPairs h.2 hpairs, String.ofList_toList]

/-- Finishes a leaf of two signers in a row, as the library does. -/
def finalizeTwoSig (lib : BtcSigner P) (tx : BtcTransaction) : Except String (List Bytes) :=
  match tx.inputs.map fun i => (i, i.tapLeafScript) with
  | [(i, [(controlBlock, scriptWithVersion)])] =>
    let script := scriptWithVersion.dropLast
    let hash := lib.tapLeafHash script
    match i.sigOf (bytesToHex ((script.drop 1).take 32)) hash,
        i.sigOf (bytesToHex ((script.drop 35).take 32)) hash with
    | some first, some second => .ok [second, first, script, controlBlock]
    | _, _ => .error "finalize/taproot: empty witness"
  | _ => .error "finalize/taproot: empty witness"

theorem finalizes_finalizeTwoSig (lib : BtcSigner P) : lib.Finalizes (finalizeTwoSig lib) := by
  intro tx i controlBlock version first second k₁ k₂ sig₁ sig₂ hin _ hfirst hsecond h₁ h₂ htap hsig₁ hsig₂
  have hlen₁ := length_of_hexToBytes hfirst h₁
  have hlen₂ := length_of_hexToBytes hsecond h₂
  have hscript : twoSigScript k₁ k₂ = 32 :: (k₁ ++ 0xad :: 32 :: (k₂ ++ [0xac])) := by
    simp [twoSigScript, encodeScript, ScriptOp.encode, scriptPush, hlen₁, hlen₂]
  have hkey₁ : ((twoSigScript k₁ k₂).drop 1).take 32 = k₁ := by
    rw [hscript, List.drop_one, List.tail_cons, ← hlen₁, List.take_left]
  have hkey₂ : ((twoSigScript k₁ k₂).drop 35).take 32 = k₂ := by
    rw [hscript, List.drop_succ_cons, List.drop_append, hlen₁, List.drop_eq_nil_of_le (by omega),
      List.nil_append]
    show (k₂ ++ [0xac]).take 32 = k₂
    rw [← hlen₂, List.take_left]
  rw [finalizeTwoSig, hin, List.map_cons, List.map_nil, htap]
  dsimp only
  rw [List.dropLast_concat, hkey₁, hkey₂, bytesToHex_of_hexToBytes hfirst h₁,
    bytesToHex_of_hexToBytes hsecond h₂, hsig₁, hsig₂]

/-- What funds the sample escrow. -/
def sizedOutpoint : Outpoint :=
  ⟨"abababababababababababababababababababababababababababababababab", 1⟩

/-- A release of the sample escrow. -/
def sizedRelease (d : EscrowDescriptor) : BuildSettlementParams :=
  ⟨d, sizedOutpoint, 50000, .release, sampleSingle.address.getD "", 400⟩

theorem outScripts_sampleLib : sampleLib.OutScripts := by
  intro p n hn
  obtain rfl : 34 = n := Option.some.inj hn
  show (if some p = samplePayment.address then samplePayment.script else sampleSingle.script).length = 34
  split <;> decide +kernel

/-- The estimate for the release of the sample escrow is its size. -/
theorem vsize_exact_release :
    ∃ d tx witness vsize, deriveEscrowAddress sampleLib refundKeys .mainnet none = .ok d ∧
      finalizeSettlement (finalizeTwoSig sampleLib) tx .release = .ok witness ∧
      estimateSettlementVsize sampleLib .release d (sampleSingle.address.getD "") = .ok vsize ∧
      tx.vsize [witness] = some vsize := by
  have hrun : ((deriveEscrowAddress sampleLib refundKeys .mainnet none).toOption.any fun d =>
      (buildSettlementTx sampleLib (sizedRelease d)).toOption.isSome &&
        (d.leaf .release).toOption.isSome && d.network = .mainnet) = true := by
    unfold sampleLib
    rw [samplePayment_eq, sampleSingle_eq]
    decide +kernel
  cases hd : deriveEscrowAddress sampleLib refundKeys .mainnet none with
  | error e =>
    rw [hd] at hrun
    cases hrun
  | ok d =>
    rw [hd] at hrun
    simp only [Except.toOption, Option.any_some, Bool.and_eq_true, decide_eq_true_eq] at hrun
    obtain ⟨⟨htx, hleaf⟩, hnet⟩ := hrun
    cases htx' : buildSettlementTx sampleLib (sizedRelease d) with
    | error e =>
      rw [htx'] at htx
      cases htx
    | ok tx =>
      cases hleaf' : d.leaf .release with
      | error e =>
        rw [hleaf'] at hleaf
        cases hleaf
      | ok leaf =>
        have hdest : sampleLib.Supports d (sampleSingle.address.getD "") :=
          ⟨sampleSingle.address.getD "", 34, by rw [hnet]; decide +kernel, rfl⟩
        obtain ⟨witness, vsize, hfinal, hest, hsize, -⟩ := vsize_exact sampleLib
          (finalizeTwoSig sampleLib) controlBlocks_sampleLib outScripts_sampleLib
          (finalizes_finalizeTwoSig sampleLib) refundKeys .mainnet none (sizedRelease d) tx leaf
          (leaf.signers.map fun role => ((refundKeys.of role, sampleLib.tapLeafHash leaf.script),
            List.replicate 64 0)) hd hdest (show isHex64 sizedOutpoint.txid = true by decide) htx' hleaf'
          ⟨fun _ => List.replicate 64 0, fun _ _ => rfl, List.Perm.refl _⟩
        exact ⟨d, _, witness, vsize, rfl, hfinal, hest, hsize⟩

end LnPay
