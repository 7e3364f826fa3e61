/-
# A device signs only what is its own to sign

Order, purpose and PSBT come from outside.  Whatever they are, a transaction that
`buildCosignature` signs after `checkSignRequest` spends one output of an escrow
made from the device's own key, through the leaf of the purpose, to one output
that is the device's or that the sponsor has signed for, at a bounded fee.
-/
import LnPay.SignCheck
import Mathlib.Tactic.Linarith
import Mathlib.Tactic.NormNum
import Mathlib.Tactic.FieldSimp

namespace LnPay

variable {P : Type} {lib : BtcSigner P}

/-! ## What is promised -/

/-- A transaction without its signatures. -/
def BtcTransaction.unsigned (tx : BtcTransaction) : BtcTransaction :=
  { tx with inputs := tx.inputs.map fun i => { i with tapScriptSig := [] } }

/-- The leaf a purpose is settled through, by the keys in its script. -/
def SignPurpose.leafKeys (keys : EscrowXonlyKeys) : SignPurpose → String × String
  | .release => (keys.customer, keys.sponsor)
  | .disputeSponsor => (keys.admin, keys.sponsor)
  | .refund | .disputeCustomer | .rescue => (keys.admin, keys.customer)

/-- The sponsor of the order has signed this transaction, for this leaf. -/
def SponsorSigned (lib : BtcSigner P) (tx : BtcTransaction) (sponsorXonly : String)
    (spent : Bytes) (value : ℕ) (leafScript : Bytes) : Prop :=
  ∃ sig msg key, lib.sighash tx spent value leafScript = .ok msg ∧
    hexToBytes sponsorXonly = .ok key ∧ lib.schnorrVerify sig msg key = .ok true

/-- A transaction that is in order for the one who is asked to sign it. -/
structure SoundSettlement (lib : BtcSigner P) (input : SignCheckInput) (tx : BtcTransaction) where
  keys : EscrowXonlyKeys
  descriptor : EscrowDescriptor
  controlBlock : Bytes
  tapscript : Bytes
  destination : String
  outScript : Bytes
  value : ℕ
  paid : ℕ
  /-- the escrow of the order, made from the three keys in it -/
  orderKeys : input.order.customerXonly = some keys.customer ∧
    input.order.sponsorXonly = some keys.sponsor ∧ input.order.adminXonly = some keys.admin
  mine : keys.of input.role.escrowRole = input.myXonly
  derived : deriveEscrowAddress lib keys input.order.network input.order.timelockBlocks =
    .ok descriptor
  /-- one input of the escrow, and the value that is signed for -/
  inputs : ∃ i, tx.inputs = [i] ∧ i.witnessUtxo = some (descriptor.payment.script, value) ∧
    i.tapLeafScript = [(controlBlock, tapscript)]
  /-- the leaf of the purpose -/
  leaf : ∃ first second, hexToBytes (input.purpose.leafKeys keys).1 = .ok first ∧
    hexToBytes (input.purpose.leafKeys keys).2 = .ok second ∧
    tapscript.dropLast = twoSigScript first second
  /-- one output, to the destination -/
  outputs : tx.outputs = [⟨some outScript, some paid⟩]
  address : outputScriptFor lib destination descriptor = .ok outScript
  fee : (value : ℚ) - paid ≤ maxSaneSettlementFeerate * tx.signedVsize 2
  fee_nonneg : paid ≤ value
  /-- the destination is mine, or the sponsor has signed for it -/
  goesTo : match input.purpose with
    | .release => input.role = .customer ∧ SponsorSigned lib tx.unsigned keys.sponsor
        descriptor.payment.script value tapscript.dropLast
    | .disputeSponsor => input.role = .sponsor ∧ input.payoutAddress = some destination
    | .refund | .disputeCustomer | .rescue =>
      deriveSingleKeyAddress lib input.myXonly input.order.network = .ok destination ∨
        ∃ address, input.refundAddress = some address ∧ destination = jsTrim address

/-! ## Signatures -/

@[simp] theorem BtcTransaction.addSigs_outputs (tx : BtcTransaction)
    (sigs : List ((String × Bytes) × Bytes)) : (tx.addSigs sigs).outputs = tx.outputs := rfl

@[simp] theorem BtcTransaction.addSigs_unsigned (tx : BtcTransaction)
    (sigs : List ((String × Bytes) × Bytes)) : (tx.addSigs sigs).unsigned = tx.unsigned := by
  unfold BtcTransaction.addSigs BtcTransaction.unsigned
  cases tx.inputs with
  | nil => rfl
  | cons i is => rfl

theorem BtcTransaction.addSigs_addSigs (tx : BtcTransaction)
    (sigs sigs' : List ((String × Bytes) × Bytes)) :
    (tx.addSigs sigs).addSigs sigs' = tx.addSigs (sigs ++ sigs') := by
  unfold BtcTransaction.addSigs
  cases tx.inputs with
  | nil => rfl
  | cons i is => simp [List.append_assoc]

/-- Signatures are no part of the size they are counted in. -/
theorem BtcTransaction.unsigned_signedVsize (tx : BtcTransaction) (sigs : ℕ) :
    tx.unsigned.signedVsize sigs = tx.signedVsize sigs := by
  unfold BtcTransaction.unsigned BtcTransaction.signedVsize
  simp only [List.length_map, List.map_map]
  rfl

/-- A cosignature is the transaction of the check with signatures on it. -/
theorem buildCosignature_ok {privkey : Bytes} {check : SignCheck} {tx : BtcTransaction}
    (h : buildCosignature lib privkey check = .ok tx) :
    ∃ mine sigs, buildSettlementTx lib check.expected = .ok mine ∧ tx = mine.addSigs sigs := by
  simp only [buildCosignature, Except.bind_eq_ok_iff] at h
  obtain ⟨mine, hmine, mine', hother, hsign⟩ := h
  have hsigned : ∃ sigs, tx = mine'.addSigs sigs := by
    unfold signSettlement at hsign
    split at hsign
    · exact ⟨_, (Except.ok.inj hsign).symm⟩
    · cases hsign
  obtain ⟨sigs, rfl⟩ := hsigned
  rcases Option.eq_none_or_eq_some check.counterparty with hc | ⟨c, hc⟩
  · rw [hc] at hother
    obtain rfl := Except.ok.inj hother
    exact ⟨mine, sigs, hmine, rfl⟩
  · rw [hc] at hother
    simp only [Option.elim, addTapScriptSig] at hother
    split at hother
    · cases hother
    · obtain rfl := Except.ok.inj hother
      exact ⟨mine, _, hmine, BtcTransaction.addSigs_addSigs _ _ _⟩

theorem ok_of_toOption {ε α : Type} {x : Except ε α} {a : α} (h : x.toOption = some a) :
    x = .ok a := by
  cases x with
  | error e => cases h
  | ok b => exact congrArg Except.ok (Option.some.inj h)

/-! ## The transaction of a check -/

/-- An integral rational that is not negative is a natural number. -/
theorem natCast_num_of_isInt {q : ℚ} (hint : q.isInt = true) (h : 0 ≤ q) : (q.num.toNat : ℚ) = q := by
  have hden : q.den = 1 := by simpa [Rat.isInt] using hint
  have hnum : (q.num : ℚ) = q := Rat.coe_int_num_of_den_eq_one hden
  have hpos : 0 ≤ q.num := Rat.num_nonneg.mpr h
  calc (q.num.toNat : ℚ) = ((q.num.toNat : ℤ) : ℚ) := (Int.cast_natCast _).symm
    _ = (q.num : ℚ) := by rw [Int.toNat_of_nonneg hpos]
    _ = q := hnum

theorem dustByType_pos (kind : String) : 0 < dustByType kind := by
  unfold dustByType
  split
  · norm_num
  · split
    · norm_num
    · split
      · norm_num
      · split <;> norm_num

/-- What has been built. -/
theorem buildSettlementTx_ok {p : BuildSettlementParams} {tx : BtcTransaction}
    (h : buildSettlementTx lib p = .ok tx) :
    ∃ leaf entry script, ∃ value paid : ℕ,
      p.descriptor.leaf (settlementLeafFor p.path) = .ok leaf ∧
      p.descriptor.tapLeafScripts.filter (fun e => e.2.dropLast = leaf.script) = [entry] ∧
      outputScriptFor lib p.destination p.descriptor = .ok script ∧
      (value : ℚ) = p.valueSat ∧ (paid : ℚ) = p.valueSat - p.feeSat ∧ paid ≤ value ∧
      p.valueSat.num.toNat = value ∧ tx.unsigned = tx ∧
      (∃ i, tx.inputs = [i] ∧ i.witnessUtxo = some (p.descriptor.payment.script, value) ∧
        i.tapLeafScript = [entry]) ∧
      tx.outputs = [⟨some script, some paid⟩] := by
  simp only [buildSettlementTx, Except.bind_eq_ok_iff, throwUnless_eq_ok_iff] at h
  obtain ⟨-, ⟨hvint, hv⟩, -, ⟨hfint, hf⟩, dust, hdust, -, hge, leaf, hleaf, -, hone, script, hscript,
    htx⟩ := h
  obtain ⟨entry, hentry⟩ := List.length_eq_one_iff.mp hone
  have hpos : 0 < dust := by
    obtain ⟨decoded, -, rfl⟩ := Except.map_eq_ok_iff.mp hdust
    exact dustByType_pos _
  have hout : (p.valueSat - p.feeSat).isInt = true := by
    have hvden : p.valueSat.den = 1 := by simpa [Rat.isInt] using hvint
    have hfden : p.feeSat.den = 1 := by simpa [Rat.isInt] using hfint
    have hsub : p.valueSat - p.feeSat = ((p.valueSat.num - p.feeSat.num : ℤ) : ℚ) := by
      rw [Int.cast_sub, Rat.coe_int_num_of_den_eq_one hvden, Rat.coe_int_num_of_den_eq_one hfden]
    rw [hsub]
    simp [Rat.isInt]
  have hvalue := natCast_num_of_isInt hvint hv.le
  have hpaid := natCast_num_of_isInt hout (hpos.le.trans hge)
  have hle : (p.valueSat - p.feeSat).num.toNat ≤ p.valueSat.num.toNat := by
    have hcast : ((p.valueSat - p.feeSat).num.toNat : ℚ) ≤ (p.valueSat.num.toNat : ℚ) := by
      rw [hvalue, hpaid]
      linarith
    exact_mod_cast hcast
  obtain rfl := Except.ok.inj htx
  exact ⟨leaf, entry, script, _, _, hleaf, hentry, hscript, hvalue, hpaid, hle, rfl, rfl,
    ⟨_, rfl, rfl, hentry⟩, rfl⟩

/-- A named leaf is one of the leaves. -/
theorem EscrowDescriptor.leaf_ok {d : EscrowDescriptor} {name : EscrowLeafName} {leaf : EscrowLeaf}
    (h : d.leaf name = .ok leaf) : d.leaves.find? (fun l => l.name = name) = some leaf := by
  unfold EscrowDescriptor.leaf at h
  split at h
  · rename_i l hl
    obtain rfl := Except.ok.inj h
    exact hl
  · cases h

/-- The leaf of a purpose, and its two signers. -/
theorem leaf_of_derived {keys : EscrowXonlyKeys} {network : BtcNetworkName} {blocks : Option ℚ}
    {d : EscrowDescriptor} {path : SettlementPath} {leaf : EscrowLeaf} (purpose : SignPurpose)
    (hd : deriveEscrowAddress lib keys network blocks = .ok d)
    (hpath : settlementLeafFor path = match purpose with
      | .release => .release
      | .disputeSponsor => .sponsorWin
      | .refund | .disputeCustomer | .rescue => .customerWin)
    (hleaf : d.leaf (settlementLeafFor path) = .ok leaf) :
    leaf.signers.length = 2 ∧
      ∃ first second, hexToBytes (purpose.leafKeys keys).1 = .ok first ∧
        hexToBytes (purpose.leafKeys keys).2 = .ok second ∧
        leaf.script = twoSigScript first second := by
  obtain ⟨hleaves, -, -, -⟩ := deriveEscrowAddress_ok hd
  obtain ⟨c, s, a, timelock, hc, hs, ha, hlist⟩ := buildEscrowLeaves_ok hleaves
  have hfind := EscrowDescriptor.leaf_ok hleaf
  rw [hlist, hpath] at hfind
  cases purpose with
  | release =>
    obtain rfl := Option.some.inj hfind
    exact ⟨rfl, c, s, hc, hs, rfl⟩
  | disputeSponsor =>
    obtain rfl := Option.some.inj hfind
    exact ⟨rfl, a, s, ha, hs, rfl⟩
  | refund =>
    obtain rfl := Option.some.inj hfind
    exact ⟨rfl, a, c, ha, hc, rfl⟩
  | disputeCustomer =>
    obtain rfl := Option.some.inj hfind
    exact ⟨rfl, a, c, ha, hc, rfl⟩
  | rescue =>
    obtain rfl := Option.some.inj hfind
    exact ⟨rfl, a, c, ha, hc, rfl⟩

/-- The control blocks of an escrow. -/
theorem controlBlock_of_derived (hlib : lib.ControlBlocks) {keys : EscrowXonlyKeys}
    {network : BtcNetworkName} {blocks : Option ℚ} {d : EscrowDescriptor}
    (hd : deriveEscrowAddress lib keys network blocks = .ok d) :
    ∀ e ∈ d.tapLeafScripts, e.1.length = 97 := by
  obtain ⟨hleaves, -, hscripts, key, tree, htree, hpay⟩ := deriveEscrowAddress_ok hd
  obtain ⟨c, s, a, timelock, -, -, -, hlist⟩ := buildEscrowLeaves_ok hleaves
  rw [hlist] at htree
  obtain rfl := Except.ok.inj htree
  exact hlib _ _ _ _ _ _ _ _ hpay hscripts

theorem one_le_compactSize (n : ℕ) : 1 ≤ compactSize n := by
  unfold compactSize
  split
  · omega
  · split
    · omega
    · split <;> omega

theorem estimateSettlementVsize_pos {d : EscrowDescriptor} {path : SettlementPath}
    {destination : String} {vsize : ℕ}
    (h : estimateSettlementVsize lib path d destination = .ok vsize) : 0 < vsize := by
  simp only [estimateSettlementVsize, Except.bind_eq_ok_iff] at h
  obtain ⟨leaf, -, script, -, hv⟩ := h
  rw [← Except.ok.inj hv]
  omega

/-- The estimate is no more than the size of the finished transaction. -/
theorem estimateSettlementVsize_le {d : EscrowDescriptor} {path : SettlementPath}
    {destination : String} {vsize : ℕ} {leaf : EscrowLeaf} {script : Bytes} {tx : BtcTransaction}
    {i : TxInput} {entry : Bytes × Bytes} {paid : ℕ}
    (hest : estimateSettlementVsize lib path d destination = .ok vsize)
    (hleaf : d.leaf (settlementLeafFor path) = .ok leaf) (hsigners : leaf.signers.length = 2)
    (hscript : outputScriptFor lib destination d = .ok script)
    (hin : tx.inputs = [i]) (hentry : i.tapLeafScript = [entry])
    (hout : tx.outputs = [⟨some script, some paid⟩])
    (hlen : leaf.script.length = entry.2.length - 1) (hblock : entry.1.length = 97) :
    vsize ≤ tx.signedVsize 2 := by
  simp only [estimateSettlementVsize, Except.bind_eq_ok_iff] at hest
  obtain ⟨leaf', hleaf', script', hscript', hv⟩ := hest
  obtain rfl : leaf = leaf' := Except.ok.inj (hleaf.symm.trans hleaf')
  obtain rfl : script = script' := Except.ok.inj (hscript.symm.trans hscript')
  have hv := Except.ok.inj hv
  have hspk := one_le_compactSize script.length
  have htap := one_le_compactSize (entry.2.length - 1)
  have hsize : tx.signedVsize 2 =
      (4 * (4 + 1 + 41 + 1 + (8 + compactSize script.length + script.length) + 4) +
        (2 + (1 + 130 + (compactSize (entry.2.length - 1) + (entry.2.length - 1)) +
          (1 + 97))) + 3) / 4 := by
    unfold BtcTransaction.signedVsize
    rw [hin, hout]
    simp only [List.length_singleton, List.map_cons, List.map_nil, List.sum_cons, List.sum_nil,
      hentry, List.head?_cons, hblock, Option.getD_some]
    rfl
  rw [hsize, ← hv, hsigners, hlen]
  apply Nat.div_le_div_right
  omega

/-! ## What a check has seen -/

/-- The terms of a purpose, and where they come from. -/
structure TermsOf (lib : BtcSigner P) (input : SignCheckInput) (shown : String) (t : SignTerms) :
    Prop where
  path : settlementLeafFor t.path = match input.purpose with
    | .release => .release
    | .disputeSponsor => .sponsorWin
    | .refund | .disputeCustomer | .rescue => .customerWin
  destination : match input.purpose with
    | .release => input.role = .customer
    | .disputeSponsor => input.role = .sponsor ∧ input.payoutAddress = some t.destination
    | .refund | .disputeCustomer | .rescue =>
      deriveSingleKeyAddress lib input.myXonly input.order.network = .ok t.destination ∨
        ∃ address, input.refundAddress = some address ∧ t.destination = jsTrim address
  shown : t.destination = shown

theorem given_eq_some {s : Option String} {t : String} (h : given s = some t) : s = some t :=
  (Option.filter_eq_some_iff.mp h).1

/-- A refund goes to an address of mine, and it is the one that is shown. -/
theorem refundDestination_ok {order : OnchainOrder} {myXonly : String}
    {refundAddress : Option String} {shown destination : String}
    (h : refundDestination lib order myXonly refundAddress shown = .ok destination) :
    destination = shown ∧ (deriveSingleKeyAddress lib myXonly order.network = .ok destination ∨
      ∃ address, refundAddress = some address ∧ destination = jsTrim address) := by
  simp only [refundDestination, orThrow, Except.bind_eq_ok_iff, Except.mapError_eq_ok_iff] at h
  obtain ⟨derived, hderived, h⟩ := h
  split at h
  · rename_i hshown
    obtain rfl := Except.ok.inj h
    exact ⟨hshown.symm, .inl hderived⟩
  · split at h
    · rename_i address hgiven
      split at h
      · rename_i htrim
        obtain rfl := Except.ok.inj h
        exact ⟨rfl, .inr ⟨address, given_eq_some hgiven, htrim⟩⟩
      · cases h
    · cases h

theorem rescueTerms_ok {input : SignCheckInput} {d : EscrowDescriptor} {theirs : BtcTransaction}
    {shown : String} {t : SignTerms} (h : rescueTerms lib input d theirs shown = .ok t) :
    t.path = .refund ∧ t.destination = shown ∧
      (deriveSingleKeyAddress lib input.myXonly input.order.network = .ok t.destination ∨
        ∃ address, input.refundAddress = some address ∧ t.destination = jsTrim address) := by
  unfold rescueTerms at h
  split at h
  · cases h
  · split at h
    · cases h
    · simp only [Except.bind_eq_ok_iff] at h
      obtain ⟨address, hdest, h⟩ := h
      obtain rfl := Except.ok.inj h
      exact ⟨rfl, refundDestination_ok hdest⟩

theorem releaseTerms_ok {input : SignCheckInput} {shown : String} {outpoint : Outpoint}
    {t : SignTerms} (h : releaseTerms input shown outpoint = .ok t) :
    t.path = .release ∧ t.destination = shown ∧ input.role = .customer := by
  unfold releaseTerms at h
  split at h
  · cases h
  · rename_i hrole
    split at h
    · cases h
    · obtain rfl := Except.ok.inj h
      exact ⟨rfl, rfl, not_not.mp hrole⟩

theorem disputeSponsorTerms_ok {input : SignCheckInput} {shown : String} {outpoint : Outpoint}
    {t : SignTerms} (h : disputeSponsorTerms input shown outpoint = .ok t) :
    t.path = .sponsorWin ∧ t.destination = shown ∧ input.role = .sponsor ∧
      input.payoutAddress = some t.destination := by
  unfold disputeSponsorTerms at h
  split at h
  · cases h
  · rename_i hrole
    split at h
    · cases h
    · split at h
      · cases h
      · rename_i payout hgiven
        split at h
        · cases h
        · rename_i hshown
          split at h
          · cases h
          · obtain rfl := Except.ok.inj h
            exact ⟨rfl, (not_not.mp hshown).symm, not_not.mp hrole, given_eq_some hgiven⟩

theorem refundTerms_ok {input : SignCheckInput} {shown : String} {wantKind : Prop}
    [Decidable wantKind] {path : SettlementPath} {outpoint : Outpoint} {t : SignTerms}
    (h : refundTerms lib input shown wantKind path outpoint = .ok t) :
    t.path = path ∧ t.destination = shown ∧
      (deriveSingleKeyAddress lib input.myXonly input.order.network = .ok t.destination ∨
        ∃ address, input.refundAddress = some address ∧ t.destination = jsTrim address) := by
  unfold refundTerms at h
  split at h
  · cases h
  · split at h
    · cases h
    · split at h
      · cases h
      · simp only [Except.bind_eq_ok_iff] at h
        obtain ⟨address, hdest, h⟩ := h
        obtain rfl := Except.ok.inj h
        exact ⟨rfl, refundDestination_ok hdest⟩

/-- **The terms are mine**, case by case. -/
theorem signTerms_ok {input : SignCheckInput} {d : EscrowDescriptor} {theirs : BtcTransaction}
    {shown : String} {t : SignTerms} (h : signTerms lib input d theirs shown = .ok t) :
    TermsOf lib input shown t := by
  unfold signTerms at h
  cases hp : input.purpose with
  | rescue =>
    rw [hp] at h
    obtain ⟨hpath, hshown, hmine⟩ := rescueTerms_ok h
    refine ⟨?_, ?_, hshown⟩
    · rw [hp, hpath]
      rfl
    · rw [hp]
      exact hmine
  | release =>
    rw [hp] at h
    obtain ⟨outpoint, -, h⟩ := Except.bind_eq_ok_iff.mp h
    obtain ⟨hpath, hshown, hrole⟩ := releaseTerms_ok h
    refine ⟨?_, ?_, hshown⟩
    · rw [hp, hpath]
      rfl
    · rw [hp]
      exact hrole
  | disputeSponsor =>
    rw [hp] at h
    obtain ⟨outpoint, -, h⟩ := Except.bind_eq_ok_iff.mp h
    obtain ⟨hpath, hshown, hmine⟩ := disputeSponsorTerms_ok h
    refine ⟨?_, ?_, hshown⟩
    · rw [hp, hpath]
      rfl
    · rw [hp]
      exact hmine
  | refund =>
    rw [hp] at h
    obtain ⟨outpoint, -, h⟩ := Except.bind_eq_ok_iff.mp h
    obtain ⟨hpath, hshown, hmine⟩ := refundTerms_ok h
    refine ⟨?_, ?_, hshown⟩
    · rw [hp, hpath]
      rfl
    · rw [hp]
      exact hmine
  | disputeCustomer =>
    rw [hp] at h
    obtain ⟨outpoint, -, h⟩ := Except.bind_eq_ok_iff.mp h
    obtain ⟨hpath, hshown, hmine⟩ := refundTerms_ok h
    refine ⟨?_, ?_, hshown⟩
    · rw [hp, hpath]
      rfl
    · rw [hp]
      exact hmine

/-- The escrow is that of the keys of the order, and one of them is mine. -/
theorem checkEscrowAddress_ok {order : OnchainOrder} {role : SignRole} {myXonly : String}
    {d : EscrowDescriptor} (h : checkEscrowAddress lib order role myXonly = .ok d) :
    ∃ keys : EscrowXonlyKeys, (order.customerXonly = some keys.customer ∧
      order.sponsorXonly = some keys.sponsor ∧ order.adminXonly = some keys.admin) ∧
      keys.of role.escrowRole = myXonly ∧
      deriveEscrowAddress lib keys order.network order.timelockBlocks = .ok d := by
  unfold checkEscrowAddress at h
  split at h
  · rename_i customer sponsor admin address hc hs ha _
    dsimp only at h
    split at h
    · cases h
    · rename_i hmine
      split at h
      · cases h
      · exact ⟨⟨customer, sponsor, admin⟩, ⟨given_eq_some hc, given_eq_some hs, given_eq_some ha⟩,
          not_not.mp hmine, (verifyEscrowAddress_ok h).1⟩
  · cases h

/-- A presignature that passes is one of that key on the transaction I build. -/
theorem verifyPresignature_ok {psbt xonly : String} {expected : BuildSettlementParams}
    {sig leafScript : Bytes} (h : verifyPresignature lib psbt expected xonly = .ok (sig, leafScript)) :
    ∃ mine leaf, buildSettlementTx lib expected = .ok mine ∧
      expected.descriptor.leaf (settlementLeafFor expected.path) = .ok leaf ∧
      SponsorSigned lib mine xonly expected.descriptor.payment.script expected.valueSat.num.toNat
        leaf.script := by
  simp only [verifyPresignature, Except.bind_eq_ok_iff, Except.mapError_eq_ok_iff] at h
  obtain ⟨-, -, mine, hmine, theirs, -, -, -, -, -, -, -, -, -, leaf, hleaf, h⟩ := h
  refine ⟨mine, leaf, hmine, hleaf, ?_⟩
  split at h
  · cases h
  · simp only [Except.bind_eq_ok_iff, Except.mapError_eq_ok_iff, throwUnless_eq_ok_iff] at h
    obtain ⟨-, -, msg, hmsg, key, hkey, valid, hvalid, -, hv, -⟩ := h
    rw [hv] at hvalid
    exact ⟨_, msg, key, hmsg, hkey, hvalid⟩

/-- On a release the sponsor has signed. -/
theorem releaseCounterparty_ok {input : SignCheckInput} {expected : BuildSettlementParams}
    {c : Option Counterparty} (h : releaseCounterparty lib input expected = .ok c)
    (hrelease : input.purpose = .release) :
    ∃ mine leaf, buildSettlementTx lib expected = .ok mine ∧
      expected.descriptor.leaf (settlementLeafFor expected.path) = .ok leaf ∧
      SponsorSigned lib mine (input.order.sponsorXonly.getD "") expected.descriptor.payment.script
        expected.valueSat.num.toNat leaf.script := by
  unfold releaseCounterparty at h
  rw [if_neg (not_not.mpr hrelease)] at h
  split at h
  · cases h
  · simp only [orRefuse, Except.bind_eq_ok_iff, Except.mapError_eq_ok_iff] at h
    obtain ⟨⟨sig, leafScript⟩, hver, -⟩ := h
    exact verifyPresignature_ok hver

/-! ## Soundness -/

/-- **What is signed after a check is sound**, whoever made up the request. -/
theorem signs_only_own_terms (hlib : lib.ControlBlocks) {input : SignCheckInput} {check : SignCheck}
    {privkey : Bytes} {tx : BtcTransaction} (hcheck : checkSignRequest lib input = .ok check)
    (hsign : buildCosignature lib privkey check = .ok tx) :
    Nonempty (SoundSettlement lib input tx) := by
  obtain ⟨mine, sigs, hmine, rfl⟩ := buildCosignature_ok hsign
  simp only [checkSignRequest, orRefuse, orThrow, Except.bind_eq_ok_iff, Except.mapError_eq_ok_iff,
    throwUnless_eq_ok_iff] at hcheck
  obtain ⟨d, hescrow, theirs, -, shown, -, terms, hterms, vsize, hvsize, -, ⟨-, hfee⟩, -, -, -, -, -, -,
    -, -, other, hother, hres⟩ := hcheck
  obtain rfl := Except.ok.inj hres
  obtain ⟨keys, horder, hkey, hd⟩ := checkEscrowAddress_ok hescrow
  have hof := signTerms_ok hterms
  obtain ⟨leaf, entry, script, value, paid, hleaf, hentry, hscript, hvalue, hpaid, hle, hnat,
    hunsigned, ⟨i, hin, hutxo, htap⟩, hout⟩ := buildSettlementTx_ok hmine
  obtain ⟨hsigners, hleafScript⟩ := leaf_of_derived input.purpose hd hof.path hleaf
  have hmem : entry ∈ d.tapLeafScripts ∧ entry.2.dropLast = leaf.script := by
    have hin : entry ∈ d.tapLeafScripts.filter fun e => e.2.dropLast = leaf.script := by
      rw [hentry]
      exact List.mem_singleton.mpr rfl
    obtain ⟨hmem, heq⟩ := List.mem_filter.mp hin
    exact ⟨hmem, of_decide_eq_true heq⟩
  have hlen : leaf.script.length = entry.2.length - 1 := by
    rw [← hmem.2, List.length_dropLast]
  -- what is estimated is no more than what the transaction has in the end
  have hsize : vsize ≤ mine.signedVsize 2 := estimateSettlementVsize_le hvsize hleaf hsigners hscript
    hin htap hout hlen (controlBlock_of_derived hlib hd entry hmem.1)
  have hbound : (value : ℚ) - paid ≤ maxSaneSettlementFeerate * mine.signedVsize 2 := by
    have hpos : (0 : ℚ) < vsize := by
      have hest : 0 < vsize := estimateSettlementVsize_pos hvsize
      exact_mod_cast hest
    have hmul : terms.feeSat ≤ maxSaneSettlementFeerate * vsize := (div_le_iff₀ hpos).mp hfee
    have hcast : (vsize : ℚ) ≤ mine.signedVsize 2 := by exact_mod_cast hsize
    have hrate : (0 : ℚ) ≤ maxSaneSettlementFeerate := by
      unfold maxSaneSettlementFeerate
      norm_num
    calc (value : ℚ) - paid = terms.feeSat := by
          rw [hvalue, hpaid]
          ring
      _ ≤ maxSaneSettlementFeerate * vsize := hmul
      _ ≤ maxSaneSettlementFeerate * mine.signedVsize 2 := mul_le_mul_of_nonneg_left hcast hrate
  have hinputs : ∃ i, (mine.addSigs sigs).inputs = [i] ∧
      i.witnessUtxo = some (d.payment.script, value) ∧ i.tapLeafScript = [(entry.1, entry.2)] := by
    refine ⟨{ i with tapScriptSig := i.tapScriptSig ++ sigs }, ?_, hutxo, htap⟩
    unfold BtcTransaction.addSigs
    rw [hin]
    rfl
  refine ⟨⟨keys, d, entry.1, entry.2, terms.destination, script, value, paid, horder, hkey, hd, hinputs,
    ?_, hout, hscript, ?_, hle, ?_⟩⟩
  · obtain ⟨first, second, hfirst, hsecond, hboth⟩ := hleafScript
    exact ⟨first, second, hfirst, hsecond, hmem.2.trans hboth⟩
  · rw [← BtcTransaction.unsigned_signedVsize, BtcTransaction.addSigs_unsigned, hunsigned]
    exact hbound
  · have hgoes := hof.destination
    cases hp : input.purpose with
    | release =>
      rw [hp] at hgoes
      obtain ⟨mine', leaf', hmine', hleaf', hsigned⟩ := releaseCounterparty_ok hother hp
      obtain rfl : mine = mine' := Except.ok.inj (hmine.symm.trans hmine')
      obtain rfl : leaf = leaf' := Except.ok.inj (hleaf.symm.trans hleaf')
      refine ⟨hgoes, ?_⟩
      rw [BtcTransaction.addSigs_unsigned, hunsigned, hmem.2, ← hnat]
      rw [horder.2.1] at hsigned
      exact hsigned
    | disputeSponsor =>
      rw [hp] at hgoes
      exact hgoes
    | refund =>
      rw [hp] at hgoes
      exact hgoes
    | disputeCustomer =>
      rw [hp] at hgoes
      exact hgoes
    | rescue =>
      rw [hp] at hgoes
      exact hgoes

/-! ### A refund -/

/-- The bytes of a hex text. -/
def bytesOf (hex : String) : Bytes := (hexPairs hex.toList).getD []

/-- Three keys. -/
def refundKeys : EscrowXonlyKeys where
  customer := "774ae7f858a9411e5ef4246b70c65aac5649980be5c17891bbec17895da008cb"
  sponsor := "421f5fc9a21065445c96fdb91c0c1e2f2431741c72713b4b99ddcb316f31e9fc"
  admin := "1697ffa6fd9de627c077e3d2fe541084ce13300b0bec1146f95ae57f0d0bd6a5"

/-- The tree of the three keys. -/
def sampleTree : TapTree :=
  .branch
    (.branch (.leaf (bytesOf ("20774ae7f858a9411e5ef4246b70c65aac5649980be5c17891bbec17895da008cbad20421f5fc9a2" ++
        "1065445c96fdb91c0c1e2f2431741c72713b4b99ddcb316f31e9fcac")))
      (.leaf (bytesOf ("201697ffa6fd9de627c077e3d2fe541084ce13300b0bec1146f95ae57f0d0bd6a5ad20774ae7f858" ++
        "a9411e5ef4246b70c65aac5649980be5c17891bbec17895da008cbac"))))
    (.branch (.leaf (bytesOf ("201697ffa6fd9de627c077e3d2fe541084ce13300b0bec1146f95ae57f0d0bd6a5ad20421f5fc9a2" ++
        "1065445c96fdb91c0c1e2f2431741c72713b4b99ddcb316f31e9fcac")))
      (.leaf (bytesOf "02801fb27520774ae7f858a9411e5ef4246b70c65aac5649980be5c17891bbec17895da008cbac")))

/-- The escrow of the three keys. -/
def samplePayment : TaprootPayment where
  address := some "bc1py36au97zywlxxu9sgx0mmwluzchgukdtsljrhyhklfj5y0pnxnvqrc0x35"
  script := bytesOf "51202475de17c223be6370b0419fbdbbfc162e8e59ab87e43b92f6fa65423c3334d8"
  tapInternalKey := bytesOf numsInternalKey
  tapMerkleRoot := bytesOf "3083e873976ec71ad9d5983df15d72f9bdfc98967e779173823441f761a95b62"
  tapLeafScript := some [
    (bytesOf ("c050929b74c1a04954b78b4b6035e97a5e078a5a0f28ec96d547bfee9ace803ac07dc4f995dd64ae" ++
        "e3c4b5f01ecbde310b89061b16a3d257c2e62e7c00c7d06bfcc0c4513d27fa45a53cb299098f1184" ++
        "9cb50565ff3193350c1ac97ce87d903051"),
      bytesOf ("20774ae7f858a9411e5ef4246b70c65aac5649980be5c17891bbec17895da008cbad20421f5fc9a2" ++
        "1065445c96fdb91c0c1e2f2431741c72713b4b99ddcb316f31e9fcacc0")),
    (bytesOf ("c050929b74c1a04954b78b4b6035e97a5e078a5a0f28ec96d547bfee9ace803ac0bdf845010e8d4a" ++
        "2938d325993b39b9229f5fe686ba31df4839a78a1025dd3f5fc0c4513d27fa45a53cb299098f1184" ++
        "9cb50565ff3193350c1ac97ce87d903051"),
      bytesOf ("201697ffa6fd9de627c077e3d2fe541084ce13300b0bec1146f95ae57f0d0bd6a5ad20774ae7f858" ++
        "a9411e5ef4246b70c65aac5649980be5c17891bbec17895da008cbacc0")),
    (bytesOf ("c050929b74c1a04954b78b4b6035e97a5e078a5a0f28ec96d547bfee9ace803ac0f9f334b3ab7e42" ++
        "1437ab7fad091ab7085956586a89353dde071fdaef9e9ed41b70fedda7af59a3976f35518dcc15f8" ++
        "14cd90af85cb42a0865097f9df202e63fa"),
      bytesOf ("201697ffa6fd9de627c077e3d2fe541084ce13300b0bec1146f95ae57f0d0bd6a5ad20421f5fc9a2" ++
        "1065445c96fdb91c0c1e2f2431741c72713b4b99ddcb316f31e9fcacc0")),
    (bytesOf ("c050929b74c1a04954b78b4b6035e97a5e078a5a0f28ec96d547bfee9ace803ac047870837ce9883" ++
        "50e351c36145e4afded6ecea9a133a4d667232f4cd3922620e70fedda7af59a3976f35518dcc15f8" ++
        "14cd90af85cb42a0865097f9df202e63fa"),
      bytesOf "02801fb27520774ae7f858a9411e5ef4246b70c65aac5649980be5c17891bbec17895da008cbacc0")]

/-- The address of the customer's key alone. -/
def sampleSingle : TaprootPayment where
  address := some "bc1pxy2wupspts5wl3ctseak4g7j42h6mumaqlq6zzrn6qesraqlqz7qk730p9"
  script := bytesOf "51203114ee06015c28efc70b867b6aa3d2aaafadf37d07c1a10873d03301f41f00bc"
  tapInternalKey := bytesOf refundKeys.customer
  tapMerkleRoot := []
  tapLeafScript := none

/-- A PSBT that pays the escrow back to the customer's key. -/
def samplePsbt : String :=
  "cHNidP8BAF4CAAAAAaurq6urq6urq6urq6urq6urq6urq6urq6urq6urq6urAQAAAAD/////AcDBAAAA" ++
    "AAAAIlEgMRTuBgFcKO/HC4Z7aqPSqq+t830HwaEIc9AzAfQfALwAAAAAAAEBK1DDAAAAAAAAIlEgJHXe" ++
    "F8IjvmNwsEGfvbv8Fi6OWauH5DuS9vplQjwzNNgAAA=="

/-- The transaction in it. -/
def sampleRefund : BtcTransaction where
  version := 2
  lockTime := 0
  inputs := [{
    txid := some "abababababababababababababababababababababababababababababababab"
    index := some 1
    sequence := sequenceFinal
    witnessUtxo := some (samplePayment.script, 50000)
    tapLeafScript := []
    tapInternalKey := none
    tapMerkleRoot := none
    tapScriptSig := [] }]
  outputs := [⟨some sampleSingle.script, some 49600⟩]

/-- The library on these keys and this PSBT. -/
def sampleLib : BtcSigner String where
  decodeAddress net a :=
    if net = networkParamsFor .mainnet ∧ [samplePayment.address, sampleSingle.address].contains a then
      .ok a
    else .error "Unknown address"
  encodeAddress _ a := .ok a
  typeOf _ := "tr"
  encodeOutScript a :=
    if some a = samplePayment.address then samplePayment.script else sampleSingle.script
  decodeOutScript script :=
    if script = samplePayment.script then .ok (samplePayment.address.getD "")
    else if script = sampleSingle.script then .ok (sampleSingle.address.getD "")
    else .error "Unknown script"
  p2tr key tree net :=
    if net ≠ networkParamsFor .mainnet then .error "Unknown network"
    else if key = samplePayment.tapInternalKey ∧ tree = some sampleTree then .ok samplePayment
    else if key = sampleSingle.tapInternalKey ∧ tree = none then .ok sampleSingle
    else .error "Unknown key"
  fromPsbtBase64 psbt := if psbt = samplePsbt then .ok sampleRefund else .error "Reader: not a PSBT"
  txid tx :=
    if tx.outputs = sampleRefund.outputs then
      .ok "37eb2236086fcfb56becd44d383635660dbf8587b63c31ce9ee9e14092a427e4"
    else .error "Unknown transaction"
  tapLeafHash script :=
    if script = (bytesOf ("201697ffa6fd9de627c077e3d2fe541084ce13300b0bec1146f95ae57f0d0bd6a5ad20774ae7f858" ++
        "a9411e5ef4246b70c65aac5649980be5c17891bbec17895da008cbac")) then
      bytesOf "7dc4f995dd64aee3c4b5f01ecbde310b89061b16a3d257c2e62e7c00c7d06bfc"
    else []
  sighash _ _ _ _ := .error "Unknown transaction"
  schnorrVerify _ _ _ := .ok false
  signIdx privkey tx :=
    if privkey = bytesOf "000000000000000000000000000000000000000000000000000000000000000b" ∧
        tx.outputs = sampleRefund.outputs then
      .ok [((refundKeys.customer,
          bytesOf "7dc4f995dd64aee3c4b5f01ecbde310b89061b16a3d257c2e62e7c00c7d06bfc"),
        bytesOf ("be5bfa98e79117f35ce331c9a8eeb551006ae21627271710011f4f01e0a5994eff1c839745bbcb99" ++
          "f145d8bba25c96b42171dcca3d3d2fb3ea5722789a07e931"))]
    else .error "No taproot scripts signed"
  toLocaleString n := toString n

/-! ### The sample in bytes

A text is decoded anew wherever it is met, at a cost that grows with the square of its length.  The
sample is therefore also written with its bytes, and the runs on it are made on these.
-/

theorem bytesOf_ofList (l : List Char) : bytesOf (String.ofList l) = (hexPairs l).getD [] := by
  rw [bytesOf, String.toList_ofList]

theorem bytesOf_append (l m : List Char) :
    bytesOf (String.ofList l ++ String.ofList m) = (hexPairs (l ++ m)).getD [] := by
  rw [bytesOf, String.toList_append, String.toList_ofList, String.toList_ofList]

theorem bytesOf_append₂ (l m n : List Char) :
    bytesOf (String.ofList l ++ String.ofList m ++ String.ofList n) =
      (hexPairs (l ++ m ++ n)).getD [] := by
  rw [bytesOf, String.toList_append, String.toList_append, String.toList_ofList,
    String.toList_ofList, String.toList_ofList]

/-- The `n` lowest bytes of a number, the highest first. -/
def beBytes : ℕ → ℕ → Bytes
  | 0, _ => []
  | n + 1, v => UInt8.ofNat (v / 256 ^ n % 256) :: beBytes n v

/-- The customer's key. -/
def customerBytes : Bytes :=
  beBytes 32 0x774ae7f858a9411e5ef4246b70c65aac5649980be5c17891bbec17895da008cb

/-- The sponsor's key. -/
def sponsorBytes : Bytes :=
  beBytes 32 0x421f5fc9a21065445c96fdb91c0c1e2f2431741c72713b4b99ddcb316f31e9fc

/-- The daemon's key. -/
def adminBytes : Bytes :=
  beBytes 32 0x1697ffa6fd9de627c077e3d2fe541084ce13300b0bec1146f95ae57f0d0bd6a5

/-- The script of two signatures. -/
def twoSigBytes (a b : Bytes) : Bytes := 0x20 :: a ++ 0xad :: 0x20 :: b ++ [0xac]

/-- The script of the timelock. -/
def timelockBytes : Bytes := [0x02, 0x80, 0x1f, 0xb2, 0x75, 0x20] ++ customerBytes ++ [0xac]

/-- A control block, by the two hashes on its path. -/
def blockBytes (a b : ℕ) : Bytes :=
  0xc0 :: beBytes 32 0x50929b74c1a04954b78b4b6035e97a5e078a5a0f28ec96d547bfee9ace803ac0 ++
    beBytes 32 a ++ beBytes 32 b

/-- `sampleTree`. -/
def plainTree : TapTree :=
  .branch
    (.branch (.leaf (twoSigBytes customerBytes sponsorBytes))
      (.leaf (twoSigBytes adminBytes customerBytes)))
    (.branch (.leaf (twoSigBytes adminBytes sponsorBytes)) (.leaf timelockBytes))

/-- `samplePayment`. -/
def plainPayment : TaprootPayment where
  address := some "bc1py36au97zywlxxu9sgx0mmwluzchgukdtsljrhyhklfj5y0pnxnvqrc0x35"
  script := beBytes 34 0x51202475de17c223be6370b0419fbdbbfc162e8e59ab87e43b92f6fa65423c3334d8
  tapInternalKey := beBytes 32 0x50929b74c1a04954b78b4b6035e97a5e078a5a0f28ec96d547bfee9ace803ac0
  tapMerkleRoot := beBytes 32 0x3083e873976ec71ad9d5983df15d72f9bdfc98967e779173823441f761a95b62
  tapLeafScript := some [
    (blockBytes 0x7dc4f995dd64aee3c4b5f01ecbde310b89061b16a3d257c2e62e7c00c7d06bfc
        0xc0c4513d27fa45a53cb299098f11849cb50565ff3193350c1ac97ce87d903051,
      twoSigBytes customerBytes sponsorBytes ++ [0xc0]),
    (blockBytes 0xbdf845010e8d4a2938d325993b39b9229f5fe686ba31df4839a78a1025dd3f5f
        0xc0c4513d27fa45a53cb299098f11849cb50565ff3193350c1ac97ce87d903051,
      twoSigBytes adminBytes customerBytes ++ [0xc0]),
    (blockBytes 0xf9f334b3ab7e421437ab7fad091ab7085956586a89353dde071fdaef9e9ed41b
        0x70fedda7af59a3976f35518dcc15f814cd90af85cb42a0865097f9df202e63fa,
      twoSigBytes adminBytes sponsorBytes ++ [0xc0]),
    (blockBytes 0x47870837ce988350e351c36145e4afded6ecea9a133a4d667232f4cd3922620e
        0x70fedda7af59a3976f35518dcc15f814cd90af85cb42a0865097f9df202e63fa,
      timelockBytes ++ [0xc0])]

/-- `sampleSingle`. -/
def plainSingle : TaprootPayment where
  address := some "bc1pxy2wupspts5wl3ctseak4g7j42h6mumaqlq6zzrn6qesraqlqz7qk730p9"
  script := beBytes 34 0x51203114ee06015c28efc70b867b6aa3d2aaafadf37d07c1a10873d03301f41f00bc
  tapInternalKey := customerBytes
  tapMerkleRoot := []
  tapLeafScript := none

theorem sampleTree_eq : sampleTree = plainTree := by
  simp only [sampleTree, plainTree, TapTree.branch.injEq, TapTree.leaf.injEq]
  exact ⟨⟨(bytesOf_append _ _).trans (by decide +kernel),
      (bytesOf_append _ _).trans (by decide +kernel)⟩,
    (bytesOf_append _ _).trans (by decide +kernel), (bytesOf_ofList _).trans (by decide +kernel)⟩

theorem samplePayment_eq : samplePayment = plainPayment := by
  simp only [samplePayment, plainPayment, numsInternalKey, TaprootPayment.mk.injEq,
    Option.some.injEq, List.cons.injEq, Prod.mk.injEq, and_true, true_and]
  exact ⟨(bytesOf_ofList _).trans (by decide +kernel),
    (bytesOf_ofList _).trans (by decide +kernel), (bytesOf_ofList _).trans (by decide +kernel),
    ⟨(bytesOf_append₂ _ _ _).trans (by decide +kernel),
      (bytesOf_append _ _).trans (by decide +kernel)⟩,
    ⟨(bytesOf_append₂ _ _ _).trans (by decide +kernel),
      (bytesOf_append _ _).trans (by decide +kernel)⟩,
    ⟨(bytesOf_append₂ _ _ _).trans (by decide +kernel),
      (bytesOf_append _ _).trans (by decide +kernel)⟩,
    (bytesOf_append₂ _ _ _).trans (by decide +kernel),
    (bytesOf_ofList _).trans (by decide +kernel)⟩

theorem sampleSingle_eq : sampleSingle = plainSingle := by
  simp only [sampleSingle, plainSingle, refundKeys, TaprootPayment.mk.injEq, and_true, true_and]
  exact ⟨(bytesOf_ofList _).trans (by decide +kernel), (bytesOf_ofList _).trans (by decide +kernel)⟩

/-- The customer is asked to sign a refund. -/
def refundRequest : SignCheckInput where
  order := {
    orderId := "trade-1"
    state := .refunding
    customerPubkey := "c"
    amountSat := 50000
    createdAt := 0
    updatedAt := 1
    expiration := 3600
    network := .mainnet
    customerXonly := some refundKeys.customer
    sponsorXonly := some refundKeys.sponsor
    adminXonly := some refundKeys.admin
    escrowAddress := samplePayment.address
    fundingOutpoint := some ("abababababababababababababababababababababababababababababababab" ++ ":1")
    settlementKind := some .refundReserve
    settlementFeeSat := some 400 }
  purpose := .refund
  psbt := samplePsbt
  role := .customer
  myXonly := refundKeys.customer
  refundAddress := none
  payoutAddress := none

/-- The control blocks of the payment have the length of a depth of two, and the request passes. -/
theorem refund_checked : (∀ e ∈ samplePayment.tapLeafScript.getD [], e.1.length = 97) ∧
    ((checkSignRequest sampleLib refundRequest).toOption.bind fun check =>
      (buildCosignature sampleLib (bytesOf
        "000000000000000000000000000000000000000000000000000000000000000b") check).toOption).isSome =
        true := by
  unfold sampleLib
  rw [samplePayment_eq, sampleSingle_eq, sampleTree_eq]
  decide +kernel

theorem controlBlocks_sampleLib : sampleLib.ControlBlocks := by
  intro key a b c d net payment scripts hpay hscripts
  have hblocks : ∀ scripts, samplePayment.tapLeafScript = some scripts →
      ∀ e ∈ scripts, e.1.length = 97 := by
    intro scripts heq
    have hall := refund_checked.1
    rwa [heq] at hall
  simp only [sampleLib] at hpay
  split at hpay
  · cases hpay
  · split at hpay
    · obtain rfl := Except.ok.inj hpay
      exact hblocks scripts hscripts
    · split at hpay
      · rename_i hnone
        exact absurd hnone.2 (by simp)
      · cases hpay

/-- The refund passes and is signed. -/
theorem signs_only_own_terms_sample :
    ∃ check tx, checkSignRequest sampleLib refundRequest = .ok check ∧
      buildCosignature sampleLib (bytesOf
        "000000000000000000000000000000000000000000000000000000000000000b") check = .ok tx ∧
      Nonempty (SoundSettlement sampleLib refundRequest tx) := by
  have hrun := refund_checked.2
  cases hcheck : checkSignRequest sampleLib refundRequest with
  | error e =>
    rw [hcheck] at hrun
    cases hrun
  | ok check =>
    cases hsign : buildCosignature sampleLib (bytesOf
        "000000000000000000000000000000000000000000000000000000000000000b") check with
    | error e =>
      rw [hcheck] at hrun
      simp only [Except.toOption, Option.bind_some, hsign] at hrun
      cases hrun
    | ok tx =>
      exact ⟨check, tx, rfl, hsign, signs_only_own_terms controlBlocks_sampleLib hcheck hsign⟩

end LnPay
