/-
# What a presignature is worth (`shared/src/onchain/verify.ts`, `tx.ts`)

The PSBT of the other side may hold anything.  `verifyPresignature` passes exactly
when it is the transaction that was expected and holds, for that key and that
leaf, a signature of 64 bytes that is valid for it; what else there is in it does
not matter.  The signatures that have passed, put into a transaction that has just
been built, make a witness that the leaf accepts.

A leaf is run here as the rules of tapscript have it, on the opcodes it is made
of.
-/
import LnPay.SettlementSize

namespace LnPay

variable {P : Type}

/-! ## Running a leaf -/

/-- What a leaf is run against. -/
structure TapContext where
  version : ℕ
  sequence : ℕ
  /-- whether a signature is valid for a key -/
  checkSig : Bytes → Bytes → Bool

/-- The value of the bytes of a number, lowest first. -/
def scriptNumberValue (bytes : Bytes) : ℕ := Nat.ofDigits 256 (bytes.map UInt8.toNat)

/-- One opcode, on a stack with its top in front; `none` when the script fails.  A signature that is
there has to be valid. -/
def ScriptOp.exec (c : TapContext) : ScriptOp → List Bytes → Option (List Bytes)
  | .push data, stack => some (data :: stack)
  | .number n, stack => some (scriptNumber n :: stack)
  | .checkSigVerify, key :: sig :: stack => if c.checkSig sig key then some stack else none
  | .checkSig, key :: sig :: stack =>
    if sig = [] then some ([] :: stack)
    else if c.checkSig sig key then some ([1] :: stack) else none
  | .checkSequenceVerify, n :: stack =>
    -- the sequence has to count blocks, and as many of them
    if 2 ≤ c.version ∧ c.sequence < 2 ^ 16 ∧ scriptNumberValue n ≤ c.sequence then
      some (n :: stack)
    else none
  | .drop, _ :: stack => some stack
  | _, _ => none

/-- The opcodes of a leaf, one after the other. -/
def execScript (c : TapContext) : List ScriptOp → List Bytes → Option (List Bytes)
  | [], stack => some stack
  | op :: ops, stack => (op.exec c stack).bind (execScript c ops)

/-- What a transaction says to a leaf: a signature counts if it has 64 bytes and is valid for the
default sighash of the transaction, which does not look at signatures. -/
def tapContext (lib : BtcSigner P) (p : BuildSettlementParams) (tx : BtcTransaction)
    (leafScript : Bytes) : TapContext where
  version := tx.version
  sequence := (tx.inputs.head?.map TxInput.sequence).getD 0
  checkSig sig key := sig.length = 64 &&
    ((lib.sighash tx.unsigned p.descriptor.payment.script p.valueSat.num.toNat leafScript).toOption.any
      fun msg => (lib.schnorrVerify sig msg key).toOption = some true)

/-- A witness satisfies a leaf: it ends in the script and a control block of the escrow, and the script
leaves nothing but a one on what stands before. -/
def Satisfies (lib : BtcSigner P) (p : BuildSettlementParams) (tx : BtcTransaction)
    (leaf : EscrowLeaf) (witness : List Bytes) : Prop :=
  ∃ items controlBlock version ops, witness = items ++ [leaf.script, controlBlock] ∧
    (controlBlock, leaf.script ++ [version]) ∈ p.descriptor.tapLeafScripts ∧
    encodeScript ops = leaf.script ∧
    execScript (tapContext lib p tx leaf.script) ops items.reverse = some [[1]]

/-- A number is read back from its bytes. -/
theorem scriptNumberValue_scriptNumber (n : ℕ) : scriptNumberValue (scriptNumber n) = n := by
  have hdigits : ((Nat.digits 256 n).map UInt8.ofNat).map UInt8.toNat = Nat.digits 256 n := by
    rw [List.map_map]
    refine (List.map_congr_left fun d hd => ?_).trans (List.map_id _)
    exact UInt8.toNat_ofNat_of_lt (Nat.digits_lt_base (by norm_num) hd)
  unfold scriptNumber scriptNumberValue
  dsimp only
  split
  · split
    · rw [List.map_append, hdigits, Nat.ofDigits_append, Nat.ofDigits_digits]
      simp
    · rw [hdigits, Nat.ofDigits_digits]
  · rename_i hnone
    rw [List.getLast?_eq_none_iff, List.map_eq_nil_iff, Nat.digits_eq_nil_iff_eq_zero] at hnone
    rw [hnone]
    rfl

/-- Two signatures that are valid satisfy a script of two signers. -/
theorem execScript_twoSig {c : TapContext} {k₁ k₂ sig₁ sig₂ : Bytes} (h₁ : c.checkSig sig₁ k₁ = true)
    (h₂ : c.checkSig sig₂ k₂ = true) (hsig : sig₂ ≠ []) :
    execScript c [.push k₁, .checkSigVerify, .push k₂, .checkSig] [sig₁, sig₂] = some [[1]] := by
  simp [execScript, ScriptOp.exec, h₁, h₂, hsig]

/-- One signature satisfies the timelock, once the input has waited. -/
theorem execScript_timelock {c : TapContext} {k sig : Bytes} {n : ℕ} (hversion : 2 ≤ c.version)
    (hwait : c.sequence = n) (hn : n < 2 ^ 16) (h : c.checkSig sig k = true) (hsig : sig ≠ []) :
    execScript c [.number n, .checkSequenceVerify, .drop, .push k, .checkSig] [sig] = some [[1]] := by
  have hn' : n < 65536 := hn
  simp [execScript, ScriptOp.exec, hversion, hwait, hn', scriptNumberValue_scriptNumber, h, hsig]

/-! ## What a presignature is -/

/-- What a txid stands for: all of a transaction but its witnesses. -/
structure TxOutline where
  version : ℕ
  lockTime : ℕ
  inputs : List (Option String × Option ℕ × ℕ)
  outputs : List TxOutput
  deriving DecidableEq

/-- The outline of a transaction. -/
def BtcTransaction.outline (tx : BtcTransaction) : TxOutline where
  version := tx.version
  lockTime := tx.lockTime
  inputs := tx.inputs.map fun i => (i.txid, i.index, i.sequence)
  outputs := tx.outputs

/-- Transactions with one txid have the same outline. -/
def BtcSigner.TxidCommits (lib : BtcSigner P) : Prop :=
  ∀ tx tx' id, lib.txid tx = .ok id → lib.txid tx' = .ok id → tx.outline = tx'.outline

/-- A key comes once in a map of a PSBT. -/
def BtcSigner.UniqueSigs (lib : BtcSigner P) : Prop :=
  ∀ psbt tx, lib.fromPsbtBase64 psbt = .ok tx → ∀ i ∈ tx.inputs, (i.tapScriptSig.map Prod.fst).Nodup

/-- A PSBT is a presignature of a key: it decodes to a transaction with the txid of the one that is
expected, and holds a signature of that key for the leaf, which the leaf accepts. -/
structure Presigned (lib : BtcSigner P) (psbt : String) (p : BuildSettlementParams) (signer : String)
    (mine theirs : BtcTransaction) (leaf : EscrowLeaf) (key sig : Bytes) : Prop where
  form : isHex64 signer = true
  built : buildSettlementTx lib p = .ok mine
  decoded : lib.fromPsbtBase64 psbt = .ok theirs
  sameTxid : ∃ id, lib.txid theirs = .ok id ∧ lib.txid mine = .ok id
  named : p.descriptor.leaf (settlementLeafFor p.path) = .ok leaf
  point : hexToBytes signer = .ok key
  signed : ∃ i ∈ theirs.inputs.head?, ((signer, lib.tapLeafHash leaf.script), sig) ∈ i.tapScriptSig
  valid : (tapContext lib p mine leaf.script).checkSig sig key = true

/-- What `verifyPresignature` has seen when it passes. -/
theorem presigned_of_verifyPresignature {lib : BtcSigner P} {psbt signer : String}
    {p : BuildSettlementParams} {sig script : Bytes}
    (h : verifyPresignature lib psbt p signer = .ok (sig, script)) :
    ∃ mine theirs leaf key, Presigned lib psbt p signer mine theirs leaf key sig ∧
      script = leaf.script := by
  simp only [verifyPresignature, Except.bind_eq_ok_iff, Except.mapError_eq_ok_iff,
    throwUnless_eq_ok_iff] at h
  obtain ⟨-, hform, mine, hmine, theirs, htheirs, -, -, id, hid, myId, hmyId, -, rfl, leaf, hleaf,
    h⟩ := h
  split at h
  · cases h
  · rename_i sig' hfound
    simp only [Except.bind_eq_ok_iff, Except.mapError_eq_ok_iff, throwUnless_eq_ok_iff] at h
    obtain ⟨-, hlen, msg, hmsg, key, hkey, valid, hvalid, -, rfl, h⟩ := h
    obtain ⟨rfl, rfl⟩ := Prod.mk.inj (Except.ok.inj h)
    refine ⟨mine, theirs, leaf, key, ⟨hform, hmine, htheirs, ⟨_, hid, hmyId⟩, hleaf, hkey, ?_, ?_⟩, rfl⟩
    · obtain ⟨e, he, rfl⟩ := Option.map_eq_some_iff.mp hfound
      obtain ⟨i, hi, hfind⟩ := Option.bind_eq_some_iff.mp he
      have hkeyed : e.1 = (signer, lib.tapLeafHash leaf.script) := by
        simpa using List.find?_some hfind
      refine ⟨i, hi, ?_⟩
      rw [← hkeyed]
      exact List.mem_of_find?_eq_some hfind
    · obtain ⟨-, -, -, -, -, -, -, -, -, -, -, -, hunsigned, -, -⟩ := buildSettlementTx_ok hmine
      simp only [tapContext, hunsigned, hmsg, hlen, hvalid, Except.toOption, Option.any_some,
        decide_true, Bool.and_self]

/-- What is a presignature passes. -/
theorem verifyPresignature_of_presigned {lib : BtcSigner P} (htxid : lib.TxidCommits)
    (huniq : lib.UniqueSigs) {psbt signer : String} {p : BuildSettlementParams}
    {mine theirs : BtcTransaction} {leaf : EscrowLeaf} {key sig : Bytes}
    (h : Presigned lib psbt p signer mine theirs leaf key sig) :
    verifyPresignature lib psbt p signer = .ok (sig, leaf.script) := by
  obtain ⟨id, hid, hmyId⟩ := h.sameTxid
  -- one txid, so one input and one output
  have houtline := htxid _ _ _ hid hmyId
  obtain ⟨_, _, _, _, _, -, -, -, -, -, -, -, hunsigned, -, hout⟩ := buildSettlementTx_ok h.built
  obtain ⟨i, hin, -⟩ := buildSettlementTx_input h.built
  simp only [BtcTransaction.outline, TxOutline.mk.injEq] at houtline
  obtain ⟨-, -, hinputs, houtputs⟩ := houtline
  have hin' : theirs.inputs.length = 1 := by
    simpa [hin] using congrArg List.length hinputs
  have hout' : theirs.outputs.length = 1 := by rw [houtputs, hout, List.length_singleton]
  -- the one entry of the key for the leaf is found
  obtain ⟨i', hi', hmem⟩ := h.signed
  have hfind := find_of_nodup (huniq psbt theirs h.decoded i' (List.mem_of_mem_head? hi')) hmem
  have hsig : tapScriptSigOf lib theirs signer leaf.script = some sig := by
    rw [tapScriptSigOf, Option.mem_def.mp hi', Option.bind_some, hfind, Option.map_some]
  have hvalid := h.valid
  simp only [tapContext, hunsigned, Bool.and_eq_true, decide_eq_true_eq, Option.any_eq_true] at hvalid
  obtain ⟨hlen, msg, hmsg, hverify⟩ := hvalid
  have hmsg := ok_of_toOption hmsg
  have hverify := ok_of_toOption hverify
  simp only [verifyPresignature, Except.bind_eq_ok_iff, Except.mapError_eq_ok_iff,
    throwUnless_eq_ok_iff]
  refine ⟨(), h.form, mine, h.built, theirs, h.decoded, (), ⟨hin', hout'⟩, id, hid, id, hmyId, (), rfl,
    leaf, h.named, ?_⟩
  rw [hsig]
  simp only [Except.bind_eq_ok_iff, Except.mapError_eq_ok_iff, throwUnless_eq_ok_iff]
  exact ⟨(), hlen, msg, hmsg, key, h.point, true, hverify, (), rfl, rfl⟩

/-! ## Signatures that have passed -/

/-- Signatures put into a transaction, one after the other. -/
def transplant (lib : BtcSigner P) (tx : BtcTransaction) (got : List (String × Bytes × Bytes)) :
    Except String BtcTransaction :=
  got.foldlM (fun tx g => addTapScriptSig lib tx g.2.2 g.1 g.2.1) tx

theorem BtcTransaction.addSigs_nil (tx : BtcTransaction) : tx.addSigs [] = tx := by
  unfold addSigs
  cases htx : tx.inputs with
  | nil => rw [List.modifyHead_nil, ← htx]
  | cons i is =>
    rw [List.modifyHead_cons, List.append_nil, ← htx]

theorem transplant_eq_ok {lib : BtcSigner P} {got : List (String × Bytes × Bytes)}
    (hform : ∀ g ∈ got, isHex64 g.1 = true) (tx : BtcTransaction) :
    transplant lib tx got =
      .ok (tx.addSigs (got.map fun g => ((g.1, lib.tapLeafHash g.2.2), g.2.1))) := by
  induction got generalizing tx with
  | nil =>
    rw [List.map_nil, BtcTransaction.addSigs_nil]
    rfl
  | cons g got ih =>
    have hg := hform g List.mem_cons_self
    have hstep : addTapScriptSig lib tx g.2.2 g.1 g.2.1 =
        .ok (tx.addSigs [((g.1, lib.tapLeafHash g.2.2), g.2.1)]) := by
      rw [addTapScriptSig, if_neg (not_not.mpr hg)]
    have hrest := ih (fun g' hg' => hform g' (List.mem_cons_of_mem _ hg'))
      (tx.addSigs [((g.1, lib.tapLeafHash g.2.2), g.2.1)])
    rw [BtcTransaction.addSigs_addSigs] at hrest
    rw [transplant, List.foldlM_cons, hstep]
    exact hrest

/-- Signatures do not change what a transaction says to a leaf. -/
theorem tapContext_addSigs {lib : BtcSigner P} {p : BuildSettlementParams} {tx : BtcTransaction}
    (sigs : List ((String × Bytes) × Bytes)) (leafScript : Bytes) :
    tapContext lib p (tx.addSigs sigs) leafScript = tapContext lib p tx leafScript := by
  have hsequence : ((tx.addSigs sigs).inputs.head?.map TxInput.sequence) =
      tx.inputs.head?.map TxInput.sequence := by
    unfold BtcTransaction.addSigs
    cases tx.inputs <;> rfl
  simp only [tapContext, BtcTransaction.addSigs_unsigned, hsequence]
  rfl

/-- The timelock of an escrow is a number of two bytes. -/
theorem timelock_lt_of_derived {lib : BtcSigner P} {keys : EscrowXonlyKeys} {network : BtcNetworkName}
    {blocks : Option ℚ} {d : EscrowDescriptor}
    (hd : deriveEscrowAddress lib keys network blocks = .ok d) :
    d.timelockBlocks = blocks.getD defaultTimelockBlocks ∧ d.timelockBlocks.num.toNat < 2 ^ 16 := by
  obtain ⟨hleaves, -⟩ := deriveEscrowAddress_ok hd
  have hsame : d.timelockBlocks = blocks.getD defaultTimelockBlocks := by
    simp only [deriveEscrowAddress, Except.bind_eq_ok_iff] at hd
    obtain ⟨leaves, -, internalKey, -, tree, -, payment, -, hd⟩ := hd
    split at hd
    · cases hd
    · split at hd
      · cases hd
      · exact congrArg EscrowDescriptor.timelockBlocks (Except.ok.inj hd).symm
  refine ⟨hsame, ?_⟩
  rw [hsame]
  exact timelock_lt_of_buildEscrowLeaves hleaves

/-- A leaf of an escrow accepts the signatures of its signers. -/
theorem execScript_of_leafOf {lib : BtcSigner P} {keys : EscrowXonlyKeys} {network : BtcNetworkName}
    {blocks : Option ℚ} {p : BuildSettlementParams} {tx : BtcTransaction} {leaf : EscrowLeaf}
    (hd : deriveEscrowAddress lib keys network blocks = .ok p.descriptor)
    (htx : buildSettlementTx lib p = .ok tx)
    (hleaf : p.descriptor.leaf (settlementLeafFor p.path) = .ok leaf) (sigOf : EscrowRole → Bytes)
    (hsigs : ∀ role ∈ leaf.signers, ∃ key, hexToBytes (keys.of role) = .ok key ∧
      (tapContext lib p tx leaf.script).checkSig (sigOf role) key = true) :
    ∃ ops, encodeScript ops = leaf.script ∧
      execScript (tapContext lib p tx leaf.script) ops (leaf.signers.map sigOf) = some [[1]] := by
  obtain ⟨hname, hof, -, -⟩ := leafOf_of_derived hd hleaf
  obtain ⟨i, hin, -, -, hsequence, -, hversion, -⟩ := buildSettlementTx_input htx
  have hsized : ∀ role ∈ leaf.signers, sigOf role ≠ [] := by
    intro role hrole hnil
    obtain ⟨key, -, hvalid⟩ := hsigs role hrole
    rw [hnil] at hvalid
    cases hvalid
  cases hof with
  | two r₁ r₂ k₁ k₂ hname hne hsigners h₁ h₂ hscript =>
    refine ⟨[.push k₁, .checkSigVerify, .push k₂, .checkSig], hscript.symm, ?_⟩
    obtain ⟨key₁, hkey₁, hvalid₁⟩ := hsigs r₁ (by simp [hsigners])
    obtain ⟨key₂, hkey₂, hvalid₂⟩ := hsigs r₂ (by simp [hsigners])
    obtain rfl := Except.ok.inj (h₁.symm.trans hkey₁)
    obtain rfl := Except.ok.inj (h₂.symm.trans hkey₂)
    rw [hsigners]
    exact execScript_twoSig hvalid₁ hvalid₂ (hsized r₂ (by simp [hsigners]))
  | timelock k htimelock hsigners hk hscript =>
    refine ⟨_, hscript.symm, ?_⟩
    obtain ⟨key, hkey, hvalid⟩ := hsigs .customer (by simp [hsigners])
    obtain rfl := Except.ok.inj (hk.symm.trans hkey)
    obtain ⟨hblocks, hlt⟩ := timelock_lt_of_derived hd
    have hpath : p.path = .timelock := settlementLeafFor_eq_timelock.mp (hname.symm.trans htimelock)
    rw [if_pos hpath] at hsequence
    rw [hsigners]
    refine execScript_timelock ?_ ?_ (hblocks ▸ hlt) hvalid (hsized .customer (by simp [hsigners]))
    · show 2 ≤ tx.version
      rw [hversion]
      exact le_refl 2
    · rw [tapContext, hin, List.head?_cons, Option.map_some, Option.getD_some, hsequence, hblocks]

/-- **A presignature is exactly what passes**, and what has passed for all signers of a leaf finishes
the transaction: put into one that has just been built, the signatures make a witness that satisfies
the leaf, whatever else the PSBTs held. -/
theorem presignature_exact (lib : BtcSigner P)
    (finalize : BtcTransaction → Except String (List Bytes)) (htxid : lib.TxidCommits)
    (huniq : lib.UniqueSigs) (hfin : lib.Finalizes finalize) (p : BuildSettlementParams) :
    (∀ psbt signer sig script, verifyPresignature lib psbt p signer = .ok (sig, script) ↔
      ∃ mine theirs leaf key, Presigned lib psbt p signer mine theirs leaf key sig ∧
        script = leaf.script) ∧
    ∀ keys network blocks tx leaf (psbts : EscrowRole → String) (got : EscrowRole → Bytes × Bytes)
      (order : List EscrowRole), deriveEscrowAddress lib keys network blocks = .ok p.descriptor →
      buildSettlementTx lib p = .ok tx →
      p.descriptor.leaf (settlementLeafFor p.path) = .ok leaf →
      (∀ role ∈ leaf.signers, verifyPresignature lib (psbts role) p (keys.of role) = .ok (got role)) →
      order.Perm leaf.signers →
      ∃ signed witness,
        transplant lib tx (order.map fun role => (keys.of role, got role)) = .ok signed ∧
        finalizeSettlement finalize signed p.path = .ok witness ∧
        Satisfies lib p signed leaf witness := by
  refine ⟨fun psbt signer sig script => ⟨presigned_of_verifyPresignature, ?_⟩, ?_⟩
  · rintro ⟨mine, theirs, leaf, key, h, rfl⟩
    exact verifyPresignature_of_presigned htxid huniq h
  intro keys network blocks tx leaf psbts got order hd htx hleaf hgot horder
  obtain ⟨hname, hof, hkeys, -⟩ := leafOf_of_derived hd hleaf
  -- each of them has been seen to be a signature for this leaf of this transaction
  have hseen : ∀ role ∈ leaf.signers, (got role).2 = leaf.script ∧ ∃ key,
      hexToBytes (keys.of role) = .ok key ∧
      (tapContext lib p tx leaf.script).checkSig (got role).1 key = true := by
    intro role hrole
    have hverified : verifyPresignature lib (psbts role) p (keys.of role) =
        .ok ((got role).1, (got role).2) := hgot role hrole
    obtain ⟨mine, theirs, leaf', key, h, hscript⟩ := presigned_of_verifyPresignature hverified
    obtain rfl := Except.ok.inj (htx.symm.trans h.built)
    obtain rfl := Except.ok.inj (hleaf.symm.trans h.named)
    exact ⟨hscript, key, h.point, h.valid⟩
  -- so the transaction is finished with their signatures
  have hleaves : ∀ role ∈ order, (got role).2 = leaf.script := fun role hrole =>
    (hseen role (horder.mem_iff.mp hrole)).1
  have hput : transplant lib tx (order.map fun role => (keys.of role, got role)) =
      .ok (tx.addSigs (order.map fun role =>
        ((keys.of role, lib.tapLeafHash leaf.script), (got role).1))) := by
    rw [transplant_eq_ok, List.map_map]
    · refine congrArg (fun sigs => Except.ok (tx.addSigs sigs)) (List.map_congr_left fun role hrole => ?_)
      rw [Function.comp_apply, hleaves role hrole]
    · intro g hg
      obtain ⟨role, -, rfl⟩ := List.mem_map.mp hg
      exact isHex64_of_assertEscrowKeys hkeys role
  obtain ⟨controlBlock, version, hmem, hwitness⟩ := finalize_signed hfin hd htx hleaf
    (fun role => (got role).1) (horder.map _)
  -- and the script runs through on them
  obtain ⟨ops, hops, hrun⟩ := execScript_of_leafOf hd htx hleaf (fun role => (got role).1)
    fun role hrole => (hseen role hrole).2
  refine ⟨_, _, hput, hwitness, _, controlBlock, version, ops, rfl, hmem, hops, ?_⟩
  rw [tapContext_addSigs, List.reverse_reverse]
  exact hrun

/-! ### Two presignatures of a release -/

/-- The sample escrow's signatures on its release, as the two devices send them. -/
def presigSig : EscrowRole → Bytes
  | .customer => bytesOf ("0a602c1bd680833cf8de5695b267199b0d553b6c46e183b3d0402dff8620c0f319b56345dc74ce" ++
      "86476a60e032e836ee3317fb1955a2ef2fc947c8154607d7fe")
  | .sponsor => bytesOf ("e3f15994913b892d232e8b4bd0cea1740d2c0f32beea6fff50c3ae3331ff074304b6f387d7857f" ++
      "324a7ce85260850d04e337d8777b14924cf7d1f4b7fd84d5fa")
  | .admin => []

/-- The PSBTs they come in. -/
def presigPsbtOf : EscrowRole → String
  | .customer => "cHNidP8BAF4CAAAAAaurq6urq6urq6urq6urq6urq6urq6urq6urq6urq6urAQAAAAD/////AcDBAA" ++
      "AAAAAAIlEgMRTuBgFcKO/HC4Z7aqPSqq+t830HwaEIc9AzAfQfALwAAAAAAAEBK1DDAAAAAAAAIlEg" ++
      "JHXeF8IjvmNwsEGfvbv8Fi6OWauH5DuS9vplQjwzNNhBFHdK5/hYqUEeXvQka3DGWqxWSZgL5cF4kb" ++
      "vsF4ldoAjLvfhFAQ6NSik40yWZOzm5Ip9f5oa6Md9IOaeKECXdP19ACmAsG9aAgzz43laVsmcZmw1V" ++
      "O2xG4YOz0EAt/4YgwPMZtWNF3HTOhkdqYOAy6DbuMxf7GVWi7y/JR8gVRgfX/gAA"
  | .sponsor => "cHNidP8BAF4CAAAAAaurq6urq6urq6urq6urq6urq6urq6urq6urq6urq6urAQAAAAD/////AcDBAA" ++
      "AAAAAAIlEgMRTuBgFcKO/HC4Z7aqPSqq+t830HwaEIc9AzAfQfALwAAAAAAAEBK1DDAAAAAAAAIlEg" ++
      "JHXeF8IjvmNwsEGfvbv8Fi6OWauH5DuS9vplQjwzNNhBFEIfX8miEGVEXJb9uRwMHi8kMXQccnE7S5" ++
      "ndyzFvMen8vfhFAQ6NSik40yWZOzm5Ip9f5oa6Md9IOaeKECXdP19A4/FZlJE7iS0jLotL0M6hdA0s" ++
      "DzK+6m//UMOuMzH/B0MEtvOH14V/Mkp86FJghQ0E4zfYd3sUkkz30fS3/YTV+gAA"
  | .admin => ""

/-- The script of a release of the sample escrow. -/
def presigScript : Bytes :=
  bytesOf ("20774ae7f858a9411e5ef4246b70c65aac5649980be5c17891bbec17895da008cbad20421f5fc9" ++
      "a21065445c96fdb91c0c1e2f2431741c72713b4b99ddcb316f31e9fcac")

/-- Its leaf hash. -/
def presigLeafHash : Bytes :=
  bytesOf "bdf845010e8d4a2938d325993b39b9229f5fe686ba31df4839a78a1025dd3f5f"

/-- What is signed. -/
def presigSighash : Bytes :=
  bytesOf "bfac9a6b32ae45d3617c0e6a61ba662c7fc67860d47b34f03c200be0c14e82fa"

theorem presigScript_eq : presigScript = twoSigBytes customerBytes sponsorBytes :=
  (bytesOf_append _ _).trans (by decide +kernel)

theorem presigLeafHash_eq :
    presigLeafHash = beBytes 32 0xbdf845010e8d4a2938d325993b39b9229f5fe686ba31df4839a78a1025dd3f5f :=
  (bytesOf_ofList _).trans (by decide +kernel)

theorem presigSighash_eq :
    presigSighash = beBytes 32 0xbfac9a6b32ae45d3617c0e6a61ba662c7fc67860d47b34f03c200be0c14e82fa :=
  (bytesOf_ofList _).trans (by decide +kernel)

/-- What the PSBT of a role decodes to. -/
def presigSigned (role : EscrowRole) : BtcTransaction :=
  sampleRefund.addSigs [((refundKeys.of role, presigLeafHash), presigSig role)]

/-- The library on the release of the sample escrow. -/
def presignedLib : BtcSigner String where
  decodeAddress := sampleLib.decodeAddress
  encodeAddress := sampleLib.encodeAddress
  typeOf := sampleLib.typeOf
  encodeOutScript := sampleLib.encodeOutScript
  decodeOutScript := sampleLib.decodeOutScript
  p2tr := sampleLib.p2tr
  fromPsbtBase64 psbt :=
    if psbt = presigPsbtOf .customer then .ok (presigSigned .customer)
    else if psbt = presigPsbtOf .sponsor then .ok (presigSigned .sponsor)
    else .error "Reader: not a PSBT"
  txid tx :=
    if tx.outline = sampleRefund.outline then
      .ok "37eb2236086fcfb56becd44d383635660dbf8587b63c31ce9ee9e14092a427e4"
    else .error "Unknown transaction"
  tapLeafHash script := if script = presigScript then presigLeafHash else sampleLib.tapLeafHash script
  sighash tx spent valueSat script :=
    if tx.outline = sampleRefund.outline ∧ spent = samplePayment.script ∧ valueSat = 50000 ∧
        script = presigScript then
      .ok presigSighash
    else .error "Unknown transaction"
  schnorrVerify sig msg key := .ok ([EscrowRole.customer, EscrowRole.sponsor].any fun role =>
    sig = presigSig role ∧ msg = presigSighash ∧ key = bytesOf (refundKeys.of role))
  signIdx := sampleLib.signIdx
  toLocaleString := sampleLib.toLocaleString

/-- A library that knows the ids of one outline only. -/
theorem txidCommits_of_outline {lib : BtcSigner String} (outline : TxOutline)
    (h : ∀ tx id, lib.txid tx = .ok id → tx.outline = outline) : lib.TxidCommits := by
  intro tx tx' id htx htx'
  rw [h tx id htx, h tx' id htx']

theorem txidCommits_presignedLib : presignedLib.TxidCommits := by
  refine txidCommits_of_outline sampleRefund.outline fun tx id h => ?_
  simp only [presignedLib] at h
  split at h
  · assumption
  · cases h

theorem uniqueSigs_presignedLib : presignedLib.UniqueSigs := by
  have hone : ∀ role, ∀ i ∈ (presigSigned role).inputs, (i.tapScriptSig.map Prod.fst).Nodup := by
    intro role i hi
    obtain rfl := List.mem_singleton.mp hi
    exact List.nodup_singleton _
  intro psbt tx h
  simp only [presignedLib] at h
  split at h
  · obtain rfl := Except.ok.inj h
    exact hone .customer
  · split at h
    · obtain rfl := Except.ok.inj h
      exact hone .sponsor
    · cases h

/-- The two presignatures pass, and finish the release. -/
theorem presignature_exact_release :
    ∃ d tx leaf signed witness, deriveEscrowAddress presignedLib refundKeys .mainnet none = .ok d ∧
      buildSettlementTx presignedLib (sizedRelease d) = .ok tx ∧ leaf.name = .release ∧
      transplant presignedLib tx ([EscrowRole.sponsor, EscrowRole.customer].map fun role =>
        (refundKeys.of role, presigSig role, presigScript)) = .ok signed ∧
      finalizeSettlement (finalizeTwoSig presignedLib) signed .release = .ok witness ∧
      Satisfies presignedLib (sizedRelease d) signed leaf witness := by
  have hrun : ((deriveEscrowAddress presignedLib refundKeys .mainnet none).toOption.any fun d =>
      (buildSettlementTx presignedLib (sizedRelease d)).toOption.isSome &&
        (d.leaf .release).toOption.any fun leaf => leaf.name = .release ∧
          leaf.signers = [.customer, .sponsor] ∧ leaf.signers.all fun role =>
            (verifyPresignature presignedLib (presigPsbtOf role) (sizedRelease d)
              (refundKeys.of role)).toOption = some (presigSig role, presigScript)) = true := by
    unfold presignedLib sampleLib sampleRefund
    rw [samplePayment_eq, sampleSingle_eq, presigScript_eq, presigLeafHash_eq, presigSighash_eq]
    decide +kernel
  obtain ⟨d, hd, hrun⟩ := (Option.any_eq_true _ _).mp hrun
  obtain ⟨htx, hrun⟩ := Bool.and_eq_true_iff.mp hrun
  obtain ⟨tx, htx⟩ := Option.isSome_iff_exists.mp htx
  obtain ⟨leaf, hleaf, hrun⟩ := (Option.any_eq_true _ _).mp hrun
  obtain ⟨hname, hsigners, hall⟩ := of_decide_eq_true hrun
  obtain ⟨signed, witness, hput, hfinal, hsat⟩ := (presignature_exact presignedLib
    (finalizeTwoSig presignedLib) txidCommits_presignedLib uniqueSigs_presignedLib
    (finalizes_finalizeTwoSig presignedLib) (sizedRelease d)).2 refundKeys .mainnet none tx leaf
    presigPsbtOf (fun role => (presigSig role, presigScript)) [.sponsor, .customer]
    (ok_of_toOption hd) (ok_of_toOption htx) (ok_of_toOption hleaf)
    (fun role hrole => ok_of_toOption (of_decide_eq_true (List.all_eq_true.mp hall role hrole)))
    (by rw [hsigners]; exact List.Perm.swap _ _ _)
  exact ⟨d, tx, leaf, signed, witness, ok_of_toOption hd, ok_of_toOption htx, hname, hput,
    hfinal, hsat⟩

end LnPay
