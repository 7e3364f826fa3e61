/-
# Emptying a single-key address (`buildKeyPathSweep` of `shared/src/onchain/tx.ts`)

Refunds of old orders went to addresses that only the app can spend from.  The
sweep is built twice: once without a fee, to be signed and measured, and once
with the fee that the measure comes to.

* `buildKeyPathSweep` is the function,
* `vsize_congr`: the amount of an output does not change the size,
* `sweep_pays_its_size`: the fee is the one of the transaction that is sent.
-/
import LnPay.SettlementSize
import LnPay.SignSound

namespace LnPay

/-! ## The function -/

/-- `KeyPathUtxo`. -/
structure KeyPathUtxo where
  txid : String
  vout : ℕ
  valueSat : ℕ
  deriving DecidableEq, Repr

/-- `pubSchnorr`, and `sign` with `finalize`: a witness for each input, which is a signature of 64
bytes. -/
structure KeyPathSigner where
  pubSchnorr : Bytes → Bytes
  sign : Bytes → BtcTransaction → Except String (List (List Bytes))
  length_sign : ∀ {privkey tx witnesses}, sign privkey tx = .ok witnesses →
    witnesses.length = tx.inputs.length
  sign_single : ∀ {privkey tx witnesses}, sign privkey tx = .ok witnesses →
    ∀ w ∈ witnesses, ∃ sig : Bytes, w = [sig] ∧ sig.length = 64

/-- What `buildKeyPathSweep` returns; the witnesses are part of the transaction there. -/
structure KeyPathSweep where
  tx : BtcTransaction
  witnesses : List (List Bytes)
  feeSat : ℤ
  outputSat : ℤ

section Sweep

variable {P : Type} (lib : BtcSigner P) (signer : KeyPathSigner)

/-- The input for an output that is spent. -/
def keyPathInput (pay : TaprootPayment) (u : KeyPathUtxo) : TxInput where
  txid := some u.txid
  index := some u.vout
  sequence := sequenceFinal
  witnessUtxo := some (pay.script, u.valueSat)
  tapLeafScript := []
  tapInternalKey := some pay.tapInternalKey
  tapMerkleRoot := none
  tapScriptSig := []

/-- The transaction that pays so much. -/
def keyPathTx (pay : TaprootPayment) (utxos : List KeyPathUtxo) (outScript : Bytes) (amount : ℕ) :
    BtcTransaction where
  version := txVersion
  lockTime := 0
  inputs := utxos.map (keyPathInput pay)
  outputs := [⟨some outScript, some amount⟩]

/-- The values of some outputs. -/
def totalSat (utxos : List KeyPathUtxo) : ℕ := (utxos.map (·.valueSat)).sum

/-- `buildKeyPathSweep`.  A transaction that has no size is refused by the library. -/
def buildKeyPathSweep (privkey : Bytes) (network : BtcNetworkName) (utxos : List KeyPathUtxo)
    (destination : String) (feerateSatPerVb : ℚ) : Except String KeyPathSweep := do
  throwUnless (utxos ≠ []) "보낼 UTXO가 없다"
  throwUnless (0 < feerateSatPerVb) s!"feerate가 비정상이다: {feerateSatPerVb}"
  let pay ← lib.p2tr (signer.pubSchnorr privkey) none (networkParamsFor network)
  let decoded ← lib.decodeAddress (networkParamsFor network) destination
  let outScript := lib.encodeOutScript decoded
  let probe := keyPathTx pay utxos outScript (totalSat utxos)
  let probeWitnesses ← signer.sign privkey probe
  let vsize ← (probe.vsize probeWitnesses).elim (.error "Unknown txid") .ok
  let feeSat := ⌈vsize * feerateSatPerVb⌉
  let outputSat := totalSat utxos - feeSat
  let dust := dustByType (lib.typeOf decoded)
  throwUnless (dust ≤ outputSat) s!"수수료를 빼면 dust 이하다: {outputSat} sat < {dust} sat"
  let tx := keyPathTx pay utxos outScript outputSat.toNat
  let witnesses ← signer.sign privkey tx
  return ⟨tx, witnesses, feeSat, outputSat⟩

end Sweep

/-! ## The size -/

/-- The bytes of a body with one output, by its amount. -/
theorem encodeBody_amount {tx tx' : BtcTransaction} {script : Bytes} {a b : ℕ} {body : Bytes}
    (hin : tx'.inputs = tx.inputs) (hout : tx.outputs = [⟨some script, some a⟩])
    (hout' : tx'.outputs = [⟨some script, some b⟩]) (h : tx.encodeBody = some body) :
    ∃ body', tx'.encodeBody = some body' ∧ body'.length = body.length := by
  unfold BtcTransaction.encodeBody at h ⊢
  rw [hout] at h
  rw [hin, hout']
  cases hi : tx.inputs.mapM TxInput.encode with
  | none =>
    rw [hi] at h
    cases h
  | some inputs =>
    rw [hi] at h
    obtain rfl := Option.some.inj h
    refine ⟨_, rfl, ?_⟩
    have hparts : ∀ n, [littleEndian 8 n ++ sizedBytes script].reverse.flatten.length =
        8 + (sizedBytes script).length := by
      intro n
      simp only [List.reverse_singleton, List.flatten_cons, List.flatten_nil, List.append_nil,
        List.length_append, length_littleEndian]
    have hcount : ∀ n, [littleEndian 8 n ++ sizedBytes script].reverse.length = 1 := fun _ => rfl
    simp only [List.length_append, hparts, hcount]

/-- Transactions that differ in the amount of their output and in witnesses of the same lengths have
the same size. -/
theorem vsize_congr {tx tx' : BtcTransaction} {script : Bytes} {a b v : ℕ}
    {witnesses witnesses' : List (List Bytes)} (hversion : tx'.version = tx.version)
    (hlock : tx'.lockTime = tx.lockTime) (hin : tx'.inputs = tx.inputs)
    (hout : tx.outputs = [⟨some script, some a⟩]) (hout' : tx'.outputs = [⟨some script, some b⟩])
    (hw : (witnesses'.flatMap encodeWitness).length = (witnesses.flatMap encodeWitness).length)
    (h : tx.vsize witnesses = some v) : tx'.vsize witnesses' = some v := by
  unfold BtcTransaction.vsize BtcTransaction.encodeStripped BtcTransaction.encodeFinal at h ⊢
  cases hb : tx.encodeBody with
  | none =>
    rw [hb] at h
    cases h
  | some body =>
    obtain ⟨body', hb', hlen⟩ := encodeBody_amount hin hout hout' hb
    rw [hb] at h
    rw [hb', ← h]
    simp only [Option.map_some, Option.bind_eq_bind, Option.bind_some, hversion, hlock,
      List.length_append, hlen, hw, length_littleEndian]

/-- The witness of a signature. -/
theorem length_encodeWitness_single {sig : Bytes} (h : sig.length = 64) :
    (encodeWitness [sig]).length = 66 := by
  have hsized : (sizedBytes sig).length = 1 + sig.length := length_sizedBytes (by omega)
  simp [encodeWitness, length_compactSizeBytes, compactSize, hsized, h]

/-- The witnesses of so many inputs. -/
theorem length_witnesses {witnesses : List (List Bytes)}
    (h : ∀ w ∈ witnesses, ∃ sig : Bytes, w = [sig] ∧ sig.length = 64) :
    (witnesses.flatMap encodeWitness).length = 66 * witnesses.length := by
  induction witnesses with
  | nil => rfl
  | cons w ws ih =>
    obtain ⟨sig, rfl, hsig⟩ := h w List.mem_cons_self
    have hrest := ih fun w hw => h w (List.mem_cons_of_mem _ hw)
    rw [List.flatMap_cons, List.length_append, hrest, length_encodeWitness_single hsig,
      List.length_cons]
    omega

/-! ## The fee -/

section Sweep

variable {P : Type} {lib : BtcSigner P} {signer : KeyPathSigner} {privkey : Bytes}
  {network : BtcNetworkName} {utxos : List KeyPathUtxo} {destination : String} {rate : ℚ}
  {sweep : KeyPathSweep}

/-- The parts of a sweep that was built. -/
theorem buildKeyPathSweep_ok
    (h : buildKeyPathSweep lib signer privkey network utxos destination rate = .ok sweep) :
    ∃ pay decoded probeWitnesses vsize,
      lib.p2tr (signer.pubSchnorr privkey) none (networkParamsFor network) = .ok pay ∧
      lib.decodeAddress (networkParamsFor network) destination = .ok decoded ∧
      signer.sign privkey (keyPathTx pay utxos (lib.encodeOutScript decoded) (totalSat utxos)) =
        .ok probeWitnesses ∧
      (keyPathTx pay utxos (lib.encodeOutScript decoded) (totalSat utxos)).vsize probeWitnesses =
        some vsize ∧
      sweep.feeSat = ⌈vsize * rate⌉ ∧ sweep.outputSat = totalSat utxos - sweep.feeSat ∧
      dustByType (lib.typeOf decoded) ≤ sweep.outputSat ∧
      sweep.tx = keyPathTx pay utxos (lib.encodeOutScript decoded) sweep.outputSat.toNat ∧
      signer.sign privkey sweep.tx = .ok sweep.witnesses := by
  unfold buildKeyPathSweep at h
  obtain ⟨_, -, h⟩ := Except.bind_eq_ok_iff.mp h
  obtain ⟨_, -, h⟩ := Except.bind_eq_ok_iff.mp h
  obtain ⟨pay, hpay, h⟩ := Except.bind_eq_ok_iff.mp h
  obtain ⟨decoded, hdecoded, h⟩ := Except.bind_eq_ok_iff.mp h
  obtain ⟨probeWitnesses, hprobe, h⟩ := Except.bind_eq_ok_iff.mp h
  obtain ⟨vsize, hvsize, h⟩ := Except.bind_eq_ok_iff.mp h
  obtain ⟨_, hdust, h⟩ := Except.bind_eq_ok_iff.mp h
  obtain ⟨witnesses, hsign, h⟩ := Except.bind_eq_ok_iff.mp h
  cases h
  have hsize : (keyPathTx pay utxos (lib.encodeOutScript decoded) (totalSat utxos)).vsize
      probeWitnesses = some vsize := by
    cases hv : (keyPathTx pay utxos (lib.encodeOutScript decoded) (totalSat utxos)).vsize
        probeWitnesses with
    | none =>
      rw [hv] at hvsize
      cases hvsize
    | some v =>
      rw [hv] at hvsize
      cases hvsize
      rfl
  exact ⟨pay, decoded, probeWitnesses, vsize, hpay, hdecoded, hprobe, hsize, rfl, rfl,
    throwUnless_eq_ok_iff.mp hdust, rfl, hsign⟩

/-- A sweep that was built spends every output it was given, pays all of it but the fee to the
destination, which is no dust, and its fee is the wanted rate for the size that it has itself,
rounded up. -/
theorem sweep_pays_its_size
    (h : buildKeyPathSweep lib signer privkey network utxos destination rate = .ok sweep) :
    sweep.tx.inputs.map (fun i => (i.txid, i.index)) = utxos.map (fun u => (some u.txid, some u.vout)) ∧
    sweep.outputSat + sweep.feeSat = totalSat utxos ∧
    (∃ decoded, lib.decodeAddress (networkParamsFor network) destination = .ok decoded ∧
      dustByType (lib.typeOf decoded) ≤ sweep.outputSat ∧
      sweep.tx.outputs = [⟨some (lib.encodeOutScript decoded), some sweep.outputSat.toNat⟩]) ∧
    ∃ vsize, sweep.tx.vsize sweep.witnesses = some vsize ∧ sweep.feeSat = ⌈vsize * rate⌉ := by
  obtain ⟨pay, decoded, probeWitnesses, vsize, -, hdecoded, hprobe, hsize, hfee, hout, hdust, htx,
    hsign⟩ := buildKeyPathSweep_ok h
  refine ⟨?_, ?_, ⟨decoded, hdecoded, hdust, ?_⟩, vsize, ?_, hfee⟩
  · rw [htx]
    simp [keyPathTx, keyPathInput]
  · omega
  · rw [htx]
    rfl
  · have hlen := signer.length_sign hsign
    have hlen' := signer.length_sign hprobe
    have hinputs : sweep.tx.inputs =
        (keyPathTx pay utxos (lib.encodeOutScript decoded) (totalSat utxos)).inputs := by
      rw [htx]
      rfl
    have hw : (sweep.witnesses.flatMap encodeWitness).length =
        (probeWitnesses.flatMap encodeWitness).length := by
      rw [length_witnesses (signer.sign_single hsign), length_witnesses (signer.sign_single hprobe),
        hlen, hlen', hinputs]
    have hshape : sweep.tx.outputs =
        [⟨some (lib.encodeOutScript decoded), some sweep.outputSat.toNat⟩] := by
      rw [htx]
      rfl
    refine vsize_congr ?_ ?_ hinputs rfl hshape hw hsize
    · rw [htx]
      rfl
    · rw [htx]
      rfl

end Sweep

/-! ### A sweep of two outputs -/

/-- A library that knows one address. -/
def sweepLib : BtcSigner String :=
  { sampleLib with
    decodeAddress := fun _ a => .ok a
    encodeOutScript := fun _ => List.replicate 34 0
    p2tr := fun key _ _ => .ok ⟨some "bc1p", List.replicate 34 0, key, [], none⟩ }

/-- Signatures of zeros. -/
def sweepSign (_ : Bytes) (tx : BtcTransaction) : Except String (List (List Bytes)) :=
  .ok (tx.inputs.map fun _ => [List.replicate 64 0])

theorem length_sweepSign {privkey : Bytes} {tx : BtcTransaction} {witnesses : List (List Bytes)}
    (h : sweepSign privkey tx = .ok witnesses) : witnesses.length = tx.inputs.length := by
  cases h
  exact List.length_map _

theorem sweepSign_single {privkey : Bytes} {tx : BtcTransaction} {witnesses : List (List Bytes)}
    (h : sweepSign privkey tx = .ok witnesses) :
    ∀ w ∈ witnesses, ∃ sig : Bytes, w = [sig] ∧ sig.length = 64 := by
  cases h
  intro w hw
  obtain ⟨i, -, rfl⟩ := List.mem_map.mp hw
  exact ⟨_, rfl, List.length_replicate⟩

/-- A signer whose signatures have the right length. -/
def sweepSigner : KeyPathSigner := ⟨id, sweepSign, length_sweepSign, sweepSign_single⟩

/-- Two outputs. -/
def sweepUtxos : List KeyPathUtxo :=
  [⟨String.ofList (List.replicate 64 '0'), 0, 20000⟩, ⟨String.ofList (List.replicate 64 '1'), 3, 5000⟩]

/-- Swept at two satoshis for a byte. -/
def sampleSweep : Except String KeyPathSweep :=
  buildKeyPathSweep sweepLib sweepSigner [1] .mainnet sweepUtxos "bc1p" 2

theorem vsize_sampleSweep :
    (keyPathTx ⟨some "bc1p", List.replicate 34 0, [1], [], none⟩ sweepUtxos (List.replicate 34 0)
      25000).vsize [[List.replicate 64 0], [List.replicate 64 0]] = some 169 := by
  decide +kernel

theorem sampleSweep_ok : ∃ sweep, sampleSweep = .ok sweep := by
  have hprobe : (keyPathTx ⟨some "bc1p", List.replicate 34 0, [1], [], none⟩ sweepUtxos
      (List.replicate 34 0) (totalSat sweepUtxos)).vsize
        [[List.replicate 64 0], [List.replicate 64 0]] = some 169 := vsize_sampleSweep
  have hfee : ⌈((169 : ℕ) : ℚ) * 2⌉ = 338 := by
    norm_num
  have hdust : dustByType (sweepLib.typeOf "bc1p") ≤ ((totalSat sweepUtxos - 338 : ℤ) : ℚ) := by
    decide +kernel
  refine ⟨⟨keyPathTx ⟨some "bc1p", List.replicate 34 0, [1], [], none⟩ sweepUtxos
    (List.replicate 34 0) 24662, [[List.replicate 64 0], [List.replicate 64 0]], 338, 24662⟩, ?_⟩
  have hne : sweepUtxos ≠ [] := List.cons_ne_nil _ _
  have hrate : (0 : ℚ) < 2 := by norm_num
  refine Except.bind_eq_ok_iff.mpr ⟨(), throwUnless_eq_ok_iff.mpr hne, ?_⟩
  refine Except.bind_eq_ok_iff.mpr ⟨(), throwUnless_eq_ok_iff.mpr hrate, ?_⟩
  refine Except.bind_eq_ok_iff.mpr
    ⟨⟨some "bc1p", List.replicate 34 0, [1], [], none⟩, rfl, ?_⟩
  refine Except.bind_eq_ok_iff.mpr ⟨"bc1p", rfl, ?_⟩
  refine Except.bind_eq_ok_iff.mpr ⟨[[List.replicate 64 0], [List.replicate 64 0]], rfl, ?_⟩
  refine Except.bind_eq_ok_iff.mpr ⟨169, congrArg (fun v => Option.elim v _ Except.ok) hprobe, ?_⟩
  rw [hfee]
  exact Except.bind_eq_ok_iff.mpr ⟨(), throwUnless_eq_ok_iff.mpr hdust, rfl⟩

theorem sweep_pays_its_size_sample : ∃ sweep, sampleSweep = .ok sweep ∧
    ∃ vsize, sweep.tx.vsize sweep.witnesses = some vsize ∧ sweep.feeSat = ⌈vsize * (2 : ℚ)⌉ := by
  obtain ⟨sweep, hsweep⟩ := sampleSweep_ok
  exact ⟨sweep, hsweep, (sweep_pays_its_size hsweep).2.2.2⟩

end LnPay
