/-
# A claim that is accepted can be released (`daemon/src/onchain/handlers.ts`, `escrow.ts`)

A claim is judged before there is a key of the daemon's: the fee and the dust
limit are worked out for an escrow made with keys that stand in for it.  The
transaction is built much later, by another module, from what the order and its
private part have on record.

* `estimate_release`: the size of a release does not depend on the keys;
* `ocClaim_ok`: what a claim that is accepted has been checked for;
* `release_always_built`: so the fee of the record is the fee of the claim, and a
  release can be built for whatever output funds the order.
-/
import LnPay.OcBonds
import LnPay.Presignature

namespace LnPay

variable {P : Type}

/-! ## The leaf of a release -/

/-- Two scripts of two signers are the same for the same keys only. -/
theorem twoSigScript_inj {a b a' b' : Bytes} (ha : a.length = 32) (ha' : a'.length = 32)
    (hb : b.length = 32) (hb' : b'.length = 32) (h : twoSigScript a b = twoSigScript a' b') :
    a = a' ∧ b = b' := by
  have hscript : ∀ {x y : Bytes}, x.length = 32 → y.length = 32 →
      twoSigScript x y = 32 :: (x ++ ([0xad, 32] ++ (y ++ [0xac]))) := by
    intro x y hx hy
    simp [twoSigScript, encodeScript, ScriptOp.encode, scriptPush, hx, hy]
  rw [hscript ha hb, hscript ha' hb', List.cons_inj_right] at h
  obtain ⟨hfirst, hrest⟩ := List.append_inj h (ha.trans ha'.symm)
  obtain ⟨-, hrest⟩ := List.append_inj hrest rfl
  exact ⟨hfirst, (List.append_inj hrest (hb.trans hb'.symm)).1⟩

/-- Keys with the same bytes are the same. -/
theorem eq_of_hexToBytes {s t : String} {bytes : Bytes} (hs : isHex64 s = true) (ht : isHex64 t = true)
    (h : hexToBytes s = .ok bytes) (h' : hexToBytes t = .ok bytes) : s = t :=
  (bytesToHex_of_hexToBytes hs h).symm.trans (bytesToHex_of_hexToBytes ht h')

/-- The first of the leaves of an escrow is that of a release, and its script is no other leaf's. -/
theorem release_of_leaves {keys : EscrowXonlyKeys} {blocks : ℚ} {leaves : List EscrowLeaf}
    (h : buildEscrowLeaves keys blocks = .ok leaves) :
    ∃ r a b t, leaves = [r, a, b, t] ∧ r.name = .release ∧ r.signers.length = 2 ∧
      r.script.length = 68 ∧ r.script ∉ [a, b, t].map EscrowLeaf.script := by
  have hblocks := timelock_lt_of_buildEscrowLeaves h
  simp only [buildEscrowLeaves, Except.bind_eq_ok_iff] at h
  obtain ⟨_, hkeys, _, -, c, hc, s, hs, a, ha, hleaves⟩ := h
  have hform := isHex64_of_assertEscrowKeys hkeys
  have hclen := length_of_hexToBytes (hform .customer) hc
  have hslen := length_of_hexToBytes (hform .sponsor) hs
  have halen := length_of_hexToBytes (hform .admin) ha
  refine ⟨_, _, _, _, (Except.ok.inj hleaves).symm, rfl, rfl, length_twoSigScript hclen hslen, ?_⟩
  simp only [List.map_cons, List.map_nil, List.mem_cons, List.not_mem_nil, or_false]
  rintro (heq | heq | heq)
  · obtain ⟨hca, -⟩ := twoSigScript_inj hclen halen hslen hclen heq
    exact key_ne_of_assertEscrowKeys hkeys (show EscrowRole.customer ≠ .admin by decide)
      (eq_of_hexToBytes (hform .customer) (hform .admin) hc (hca ▸ ha))
  · obtain ⟨hca, -⟩ := twoSigScript_inj hclen halen hslen hslen heq
    exact key_ne_of_assertEscrowKeys hkeys (show EscrowRole.customer ≠ .admin by decide)
      (eq_of_hexToBytes (hform .customer) (hform .admin) hc (hca ▸ ha))
  · -- the timelock is shorter
    have hlength := congrArg List.length heq
    have hnumber := length_encode_number_le hblocks
    rw [length_twoSigScript hclen hslen] at hlength
    simp only [encodeScript, List.flatMap_cons, List.flatMap_nil, List.length_append,
      List.length_nil, show (ScriptOp.push c).encode = scriptPush c from rfl, scriptPush,
      List.length_cons, hclen, show ScriptOp.checkSequenceVerify.encode = [0xb2] from rfl,
      show ScriptOp.drop.encode = [0x75] from rfl, show ScriptOp.checkSig.encode = [0xac] from rfl]
      at hlength
    omega

/-- The library names each leaf of a tree of four once. -/
def BtcSigner.TapLeaves (lib : BtcSigner P) : Prop :=
  ∀ key a b c d net payment scripts,
    lib.p2tr key (some (.branch (.branch (.leaf a) (.leaf b)) (.branch (.leaf c) (.leaf d)))) net =
      .ok payment → payment.tapLeafScript = some scripts →
      (scripts.map fun e => e.2.dropLast).Perm [a, b, c, d]

section Release

variable {lib : BtcSigner P} {keys : EscrowXonlyKeys} {network : BtcNetworkName} {blocks : Option ℚ}
  {d : EscrowDescriptor}

/-- The leaf of a release has two signers and 68 bytes, whatever the keys are. -/
theorem leaf_release (hd : deriveEscrowAddress lib keys network blocks = .ok d) :
    ∃ leaf, d.leaf .release = .ok leaf ∧ leaf.signers.length = 2 ∧ leaf.script.length = 68 := by
  obtain ⟨hleaves, -⟩ := deriveEscrowAddress_ok hd
  obtain ⟨r, a, b, t, hlist, hname, hsigners, hlength, -⟩ := release_of_leaves hleaves
  refine ⟨r, ?_, hsigners, hlength⟩
  rw [EscrowDescriptor.leaf, hlist, List.find?_cons_of_pos (by simp [hname])]

/-- An escrow has one entry for the leaf of a release. -/
theorem entry_release (hlib : lib.TapLeaves)
    (hd : deriveEscrowAddress lib keys network blocks = .ok d) {leaf : EscrowLeaf}
    (hleaf : d.leaf .release = .ok leaf) :
    (d.tapLeafScripts.filter fun e => e.2.dropLast = leaf.script).length = 1 := by
  obtain ⟨hleaves, -, hscripts, internalKey, tree, htree, hpay⟩ := deriveEscrowAddress_ok hd
  obtain ⟨r, a, b, t, hlist, hname, -, -, hother⟩ := release_of_leaves hleaves
  have hr : d.leaf .release = .ok r := by
    rw [EscrowDescriptor.leaf, hlist, List.find?_cons_of_pos (by simp [hname])]
  obtain rfl := Except.ok.inj (hr.symm.trans hleaf)
  rw [hlist] at htree
  obtain rfl := Except.ok.inj htree
  have hperm := hlib _ _ _ _ _ _ _ _ hpay hscripts
  have hcount := hperm.count_eq r.script
  rw [List.map_cons, List.map_cons, List.map_cons, List.map_nil] at hother
  rw [List.count_cons_self, List.count_eq_zero_of_not_mem hother, List.count, List.countP_map,
    List.countP_eq_length_filter] at hcount
  refine Eq.trans (congrArg List.length (List.filter_congr fun e _ => ?_)) hcount
  rw [Function.comp_apply]
  by_cases heq : e.2.dropLast = r.script <;> simp [heq]

/-- The timelock on record makes the same escrow. -/
theorem deriveEscrowAddress_timelock (hd : deriveEscrowAddress lib keys network blocks = .ok d) :
    deriveEscrowAddress lib keys network (some d.timelockBlocks) =
      deriveEscrowAddress lib keys network blocks := by
  rw [(timelock_lt_of_derived hd).1]
  rfl

/-- **The size of a release does not depend on the keys.** -/
theorem estimate_release {keys' : EscrowXonlyKeys} {blocks' : Option ℚ} {d' : EscrowDescriptor}
    (hd : deriveEscrowAddress lib keys network blocks = .ok d)
    (hd' : deriveEscrowAddress lib keys' network blocks' = .ok d') (destination : String) :
    estimateSettlementVsize lib .release d destination =
      estimateSettlementVsize lib .release d' destination := by
  obtain ⟨leaf, hleaf, hsigners, hlength⟩ := leaf_release hd
  obtain ⟨leaf', hleaf', hsigners', hlength'⟩ := leaf_release hd'
  have hnet := (deriveEscrowAddress_ok hd).2.1
  have hnet' := (deriveEscrowAddress_ok hd').2.1
  have hname : settlementLeafFor .release = .release := rfl
  have hscript : outputScriptFor lib destination d = outputScriptFor lib destination d' := by
    rw [outputScriptFor, outputScriptFor, hnet, hnet']
  simp only [estimateSettlementVsize, hname, hleaf, hleaf', hscript, hsigners, hsigners', hlength,
    hlength', bind, Except.bind]

/-- A release can be built when its output is not dust. -/
theorem buildSettlementTx_release (hlib : lib.TapLeaves)
    (hd : deriveEscrowAddress lib keys network blocks = .ok d) {destination : String}
    {amountSat feerate feeSat dust : ℚ} (hint : amountSat.isInt = true) (hpos : 0 < amountSat)
    (hfee : settlementFeeSat lib .release d destination feerate = .ok feeSat)
    (hdust : dustThresholdFor lib destination d = .ok dust) (hle : dust ≤ amountSat - feeSat)
    (outpoint : Outpoint) :
    ∃ tx, buildSettlementTx lib ⟨d, outpoint, amountSat, .release, destination, feeSat⟩ = .ok tx := by
  obtain ⟨leaf, hleaf, -, -⟩ := leaf_release hd
  have hname : settlementLeafFor .release = .release := rfl
  have hone := entry_release hlib hd hleaf
  obtain ⟨-, hrate, vsize, hest, hceil⟩ : ∃ _ : Unit, 0 < feerate ∧
      ∃ vsize, estimateSettlementVsize lib .release d destination = .ok vsize ∧
        (⌈vsize * feerate⌉ : ℚ) = feeSat := by
    simp only [settlementFeeSat, Except.bind_eq_ok_iff, throwUnless_eq_ok_iff] at hfee
    obtain ⟨u, hrate, vsize, hest, hceil⟩ := hfee
    exact ⟨u, hrate, vsize, hest, Except.ok.inj hceil⟩
  have hfeeint : feeSat.isInt = true := by
    rw [← hceil]
    simp [Rat.isInt]
  have hfeepos : 0 ≤ feeSat := by
    rw [← hceil]
    exact_mod_cast Int.ceil_nonneg (mul_nonneg (Nat.cast_nonneg _) hrate.le)
  obtain ⟨script, hscript⟩ : ∃ script, outputScriptFor lib destination d = .ok script := by
    simp only [estimateSettlementVsize, Except.bind_eq_ok_iff] at hest
    obtain ⟨-, -, script, hscript, -⟩ := hest
    exact ⟨script, hscript⟩
  simp only [buildSettlementTx, Except.bind_eq_ok_iff, throwUnless_eq_ok_iff]
  exact ⟨_, (), ⟨hint, hpos⟩, (), ⟨hfeeint, hfeepos⟩, dust, hdust, (), hle, leaf, hname ▸ hleaf, (),
    hone, script, hscript, rfl⟩

end Release

/-! ## The claim -/

/-- The terms of a claim, as its event has them. -/
def claimTermsOf (event : OcEvent) : Option SponsorClaimInfo := do
  let sponsorXonly ← tagValue event.tags "sponsor-xonly"
  let (address, feerate) ← event.claimTerms
  return ⟨sponsorXonly, jsTrim address, feerate⟩

/-- What a claim that is not turned away has been checked for. -/
structure ClaimChecked (ctx : OcCtx P) (event : OcEvent) (db : OcDb) (row : OcRow)
    (info : SponsorClaimInfo) (feeSat dustSat : ℚ) : Prop where
  found : getOc row.order.orderId db = some row
  listed : row.order.state = .listed
  named : extractOrderId event.tags = some row.order.orderId
  terms : claimTermsOf event = some info
  address : info.payoutAddress ≠ ""
  fees : ctx.claimFees row.order info.sponsorXonly info.payoutAddress info.feerateSatPerVb =
    .ok (feeSat, dustSat)
  rate : feeSat ≤ row.order.amountSat * (1 / 5) ∧ dustSat ≤ row.order.amountSat - feeSat

theorem claimFees_ok {ctx : OcCtx P} {order : OnchainOrder} {sponsorXonly address : String}
    {feerate feeSat dustSat : ℚ}
    (h : ctx.claimFees order sponsorXonly address feerate = .ok (feeSat, dustSat)) :
    ∃ dummy, ctx.dummyDescriptorFor order sponsorXonly = .ok dummy ∧
      settlementFeeSat ctx.env.lib .release dummy address feerate = .ok feeSat ∧
      dustThresholdFor ctx.env.lib address dummy = .ok dustSat := by
  simp only [OcCtx.claimFees, Except.bind_eq_ok_iff] at h
  obtain ⟨dummy, hdummy, fee, hfee, dust, hdust, h⟩ := h
  obtain ⟨rfl, rfl⟩ := Prod.mk.inj (Except.ok.inj h)
  exact ⟨dummy, hdummy, hfee, hdust⟩

theorem releaseFeerateProblem_none {feerate fastest amountSat feeSat dustSat : ℚ}
    (h : releaseFeerateProblem feerate fastest amountSat feeSat dustSat = none) :
    feeSat ≤ amountSat * (1 / 5) ∧ dustSat ≤ amountSat - feeSat := by
  unfold releaseFeerateProblem at h
  dsimp only at h
  split at h
  · cases h
  · split at h
    · cases h
    · split at h
      · cases h
      · rename_i hshare
        split at h
        · cases h
        · rename_i hdust
          exact ⟨not_lt.mp hshare, not_lt.mp hdust⟩

example : releaseFeerateProblem 2 10 50000 400 330 = none := by decide +kernel

/-- An escrow is found again when its timelock is on record. -/
theorem escrowDescriptorFor_kept {env : OcEnv P} {o o' : OnchainOrder} {d : EscrowDescriptor}
    (h : escrowDescriptorFor env o = some d) (hc : o'.customerXonly = o.customerXonly)
    (hs : o'.sponsorXonly = o.sponsorXonly) (ha : o'.adminXonly = o.adminXonly)
    (hn : o'.network = o.network) (ht : o'.timelockBlocks = some d.timelockBlocks) :
    escrowDescriptorFor env o' = some d := by
  unfold escrowDescriptorFor at h ⊢
  rw [hc, hs, ha]
  split at h
  · have hd := ok_of_toOption h
    rw [hn, ht, deriveEscrowAddress_timelock hd]
    exact h
  · cases h

namespace OcCtx

variable {ctx : OcCtx P} {db db' : OcDb} {event : OcEvent} {answer : OcAnswer}

theorem claimInfo_ok {order : OnchainOrder} {sponsorXonly : String} {info : SponsorClaimInfo}
    {fees : FeeEstimates} (h : ctx.claimInfo event order sponsorXonly db = .ok (info, fees)) :
    ∃ address feerate feeSat dustSat, event.claimTerms = some (address, feerate) ∧
      info = ⟨sponsorXonly, jsTrim address, feerate⟩ ∧ info.payoutAddress ≠ "" ∧
      ctx.claimFees order sponsorXonly info.payoutAddress info.feerateSatPerVb =
        .ok (feeSat, dustSat) ∧
      feeSat ≤ order.amountSat * (1 / 5) ∧ dustSat ≤ order.amountSat - feeSat := by
  unfold claimInfo at h
  split at h
  · cases h
  · rename_i address feerate hterms
    dsimp only at h
    split at h
    · cases h
    · rename_i haddress
      split at h
      · cases h
      · split at h
        · cases h
        · rename_i feeSat dustSat hfees
          split at h
          · cases h
          · rename_i hrate
            obtain ⟨rfl, rfl⟩ := Prod.mk.inj (Except.ok.inj h)
            refine ⟨address, feerate, feeSat, dustSat, hterms, rfl, ?_, hfees,
              releaseFeerateProblem_none hrate⟩
            intro hempty
            dsimp only at hempty
            rw [hempty] at haddress
            cases haddress

/-- A claim for which no escrow can be made changes nothing. -/
theorem bondOc_false {row : OcRow} {sponsor : Pubkey} {info : SponsorClaimInfo} {bond : Option Bond}
    {b : Bool} (hb : b = false) (h : ctx.bondOc row sponsor info bond db = .ok (b, db')) :
    db' = db := by
  subst hb
  unfold bondOc at h
  dsimp only at h
  split at h
  · exact (Prod.mk.inj (Except.ok.inj h)).2.symm
  · obtain ⟨⟨o, db₁⟩, -, h⟩ := Except.bind_eq_ok_iff.mp h
    cases (Prod.mk.inj (Except.ok.inj h)).1

/-- What becomes of a claim: nothing, or it has been checked, and is made at once or waits for its
bond. -/
theorem ocClaim_cases (h : ctx.ocClaim event db = .ok (answer, db')) : db' = db ∨
    ∃ row info feeSat dustSat, ClaimChecked ctx event db row info feeSat dustSat ∧
      (ctx.bondOc row event.pubkey info none db = .ok (true, db') ∨
        ∃ p inv db₁ hash blocks, plan ctx.env.keys ctx.now p db = .ok (inv, db₁) ∧
          putCandidate ⟨hash, row.order.orderId, event.pubkey, .sponsor info blocks, ctx.now⟩ db₁ =
            .ok db') := by
  obtain hsame | ⟨row, sponsorXonly, info, fees, htaken, hmade⟩ := ocClaim_spec h
  · exact .inl hsame
  · obtain ⟨address, feerate, feeSat, dustSat, hterms, hi, haddress, hfees, hrate⟩ :=
      claimInfo_ok htaken.terms
    have hchecked : ClaimChecked ctx event db row info feeSat dustSat :=
      { found := htaken.found
        listed := htaken.listed
        named := htaken.named
        terms := by
          rw [claimTermsOf, htaken.keyed, hterms, hi]
          rfl
        address := haddress
        fees := by
          rw [show info.sponsorXonly = sponsorXonly from
            congrArg SponsorClaimInfo.sponsorXonly hi]
          exact hfees
        rate := hrate }
    obtain ⟨-, bonded, hbond⟩ | ⟨-, inv, db₁, hplan, hput⟩ := hmade
    · cases bonded with
      | true => exact .inr ⟨row, info, feeSat, dustSat, hchecked, .inl hbond⟩
      | false => exact .inl (bondOc_false rfl hbond)
    · exact .inr ⟨row, info, feeSat, dustSat, hchecked, .inr ⟨_, inv, db₁, _, _, hplan, hput⟩⟩

/-- What has been claimed: the row has the escrow that was made for it. -/
theorem bondOc_true {row r' : OcRow} {sponsor : Pubkey} {info : SponsorClaimInfo} {bond : Option Bond}
    (hrow : getOc row.order.orderId db = some row)
    (h : ctx.bondOc row sponsor info bond db = .ok (true, db'))
    (hr' : getOc row.order.orderId db' = some r') :
    ∃ d, escrowDescriptorFor ctx.env { row.order with
        sponsorXonly := some info.sponsorXonly
        adminXonly := some (ctx.env.adminXonlyOf row.order.orderId) } = some d ∧
      escrowDescriptorFor ctx.env r'.order = some d ∧ r'.order.amountSat = row.order.amountSat ∧
      r'.ocMeta.payoutAddress = some info.payoutAddress ∧
      r'.ocMeta.feerateSatPerVb = some info.feerateSatPerVb ∧ r'.order.state = .bonded := by
  unfold bondOc at h
  dsimp only at h
  split at h
  · cases (Prod.mk.inj (Except.ok.inj h)).1
  · rename_i d hd
    obtain ⟨⟨o, db₁⟩, hup, h⟩ := Except.bind_eq_ok_iff.mp h
    obtain ⟨-, rfl⟩ := Prod.mk.inj (Except.ok.inj h)
    obtain ⟨_, -, -, hdb⟩ := updateOc_ok hup
    have hcore := coreOf_eq_some hr'
    have hcore : coreOf row.order.orderId db₁ = some r'.core := by
      refine Eq.trans (Eq.symm ?_) hcore
      refine Eq.trans ((quiet_dropSponsorCandidates _ _).cores _) ?_
      cases bond with
      | none => rfl
      | some b => exact (quiet_deleteCandidate _ _).cores _
    rw [hdb, coreOf_setOc, if_pos rfl, hrow, Option.map_some] at hcore
    have hcore := Option.some.inj hcore
    have horder : r'.order = _ := (congrArg OcRow.order hcore).symm
    have hmeta : r'.ocMeta.record = _ := (congrArg OcRow.ocMeta hcore).symm
    refine ⟨d, hd, ?_, by rw [horder]; rfl, ?_, ?_, by rw [horder]; rfl⟩
    · rw [horder]
      exact escrowDescriptorFor_kept hd rfl rfl rfl rfl rfl
    · exact (congrArg OcMeta.payoutAddress hmeta)
    · exact (congrArg OcMeta.feerateSatPerVb hmeta)

/-! ## The listing -/

/-- The amount of a listing that waits for its bond. -/
theorem ocOrderRequest_amount {c : OcCandidate} (h : ctx.ocOrderRequest event db = .ok (answer, db'))
    (hnew : getCandidate c.paymentHash db = none) (hc : getCandidate c.paymentHash db' = some c) :
    ∃ info blocks, c.info = .customer info blocks ∧ info.amountSat.isInt = true ∧
      0 < info.amountSat := by
  obtain rfl | ⟨orderId, info, fees, inv, db₁, hamount, -, hplan, hput⟩ := ocOrderRequest_spec h
  · cases hnew.symm.trans hc
  · obtain rfl := candidate_of_put hplan hput hnew hc
    exact ⟨_, _, rfl, hamount⟩

/-- The amount of a listing with a named sponsor. -/
theorem ocDesignatedOrderRequest_cases
    (h : ctx.ocDesignatedOrderRequest event db = .ok (answer, db')) : db' = db ∨
    ∃ orderId info designated, info.amountSat.isInt = true ∧ 0 < info.amountSat ∧
      ctx.listOc orderId event.pubkey info none designated db = .ok db' := by
  have hsame : ∀ {a : OcAnswer}, (.ok (a, db) : OcHandled) = .ok (answer, db') → db' = db :=
    fun heq => (Prod.mk.inj (Except.ok.inj heq)).2.symm
  unfold ocDesignatedOrderRequest at h
  split at h
  · exact .inl (hsame h)
  · split at h
    · exact .inl (hsame h)
    · exact .inl (hsame h)
    · split at h
      · exact .inl (hsame h)
      · dsimp only at h
        split at h
        · exact .inl (hsame h)
        · split at h
          · exact .inl (hsame h)
          · rename_i hgate
            obtain ⟨a, ha, hint, hpos⟩ := orderGate_none hgate
            obtain rfl := Option.some.inj ha
            split at h
            · exact .inl (hsame h)
            · split at h
              · exact .inl (hsame h)
              · split at h
                · exact .inl (hsame h)
                · split at h
                  · exact .inl (hsame h)
                  · split at h
                    · exact .inl (hsame h)
                    · exact .inr ⟨_, _, _, hint, hpos, accepted_ok h⟩

/-- What is listed has the amount that was asked for. -/
theorem listOc_amount {orderId id : OrderId} {customer : Pubkey} {info : CustomerListInfo}
    {bond : Option Bond} {designated : Option Pubkey} {r' : OcRow}
    (h : ctx.listOc orderId customer info bond designated db = .ok db')
    (hr : getOc id db = none) (hr' : getOc id db' = some r') :
    r'.order.amountSat = info.amountSat := by
  unfold listOc at h
  obtain ⟨db₁, hins, h⟩ := Except.bind_eq_ok_iff.mp h
  obtain rfl := Except.ok.inj h
  have hr₁ : getOc id db₁ = some r' := by
    cases bond with
    | none => exact hr'
    | some b => exact hr'
  unfold insertOc at hins
  split at hins
  · cases hins
  · rename_i orders horders
    obtain rfl := Except.ok.inj hins
    have hfind := KeyedTable.find_insert horders id
    split at hfind
    · obtain rfl := Option.some.inj (hr₁.symm.trans hfind)
      rfl
    · cases hr.symm.trans (hfind.symm.trans hr₁)

end OcCtx

/-- A step lists the order: it names its sponsor, or the customer's bond that was planned for it is
paid. -/
inductive Lists (env : OcEnv P) (w w' : OcWorld) (id : OrderId) : Prop
  | named (event : OcEvent) (price : Option ℚ) (r : OcRow)
      (h : w.step env (.request .designatedOrderRequest event price) = some w')
      (hnew : getOc id w.db = none) (hrow : getOc id w'.db = some r)
  | paid (ctx : OcCtx P) (db db' : OcDb) (c : OcCandidate) (expiration : ℚ) (r : OcRow)
      (hplan : PlansBond ctx db db' c expiration) (hc : c.isSponsor = false)
      (htake : TakesBond env w w' c r) (hid : c.orderId = id)

/-- What is listed has a whole amount that is positive. -/
theorem Lists.amount {env : OcEnv P} {w w' : OcWorld} {id : OrderId} (h : Lists env w w' id) :
    ∃ r, getOc id w'.db = some r ∧ r.order.amountSat.isInt = true ∧ 0 < r.order.amountSat := by
  cases h with
  | named event price r h hnew hrow =>
    obtain rfl := Option.some.inj h
    refine ⟨r, hrow, ?_⟩
    unfold OcWorld.transact at hrow
    split at hrow
    · rename_i db hdb
      obtain ⟨⟨answer, db₁⟩, hhandle, hsame⟩ := Except.map_eq_ok_iff.mp hdb
      have hsame : db₁ = db := hsame
      have hhandle : (w.ctx env price).ocDesignatedOrderRequest event w.db = .ok (answer, db₁) :=
        hhandle
      have hrow : getOc id db = some r := hrow
      rw [← hsame] at hrow
      rcases OcCtx.ocDesignatedOrderRequest_cases hhandle with hkept | hlist
      · rw [hkept, hnew] at hrow
        cases hrow
      · obtain ⟨orderId, info, designated, hint, hpos, hlist⟩ := hlist
        rw [OcCtx.listOc_amount hlist hnew hrow]
        exact ⟨hint, hpos⟩
    · cases hnew.symm.trans hrow
  | paid ctx db db' c expiration r hplan hc htake hid =>
    subst hid
    refine ⟨r, htake.row, ?_⟩
    cases hplan with
    | sponsor event answer info blocks row h hnew hput hinfo =>
      rw [OcCandidate.isSponsor, hinfo] at hc
      cases hc
    | customer event answer info blocks h hnew hput hinfo =>
      obtain ⟨info', blocks', hinfo', hint, hpos⟩ := OcCtx.ocOrderRequest_amount h hnew hput
      obtain ⟨rfl, rfl⟩ := CandidateInfo.customer.inj (hinfo.symm.trans hinfo')
      obtain ⟨⟨inv, hstep, hhash, hid⟩, hcand, hrow, htaken⟩ := htake
      rw [if_neg (by rw [hc]; exact Bool.false_ne_true)] at htaken
      obtain rfl := Option.some.inj hstep
      unfold OcWorld.transact at hrow
      split at hrow
      · rename_i db₁ hdb
        simp only [OcWorld.runHook, OcCtx.bondHooks, hhash, hcand, hinfo] at hdb
        unfold OcCtx.onCustomerBond at hdb
        rw [hid, htaken, if_neg (by simp)] at hdb
        rw [OcCtx.listOc_amount hdb htaken hrow]
        exact ⟨hint, hpos⟩
      · cases htaken.symm.trans hrow

/-! ## Along a run -/

/-- What every step keeps of a row is kept along a run. -/
theorem row_of_run {env : OcEnv P} {Q : OcRow → Prop}
    (hstep : ∀ (w : OcWorld) (i : OcInput) (r r' : OcRow), RowStep (w.cause env i) r r' → Q r → Q r')
    {w w' : OcWorld} {is : List OcInput} {id : OrderId} {r : OcRow}
    (hrun : (ocSystem env).run w is = some w') (hr : getOc id w.db = some r) (hq : Q r) :
    ∃ r', getOc id w'.db = some r' ∧ Q r' := by
  induction is generalizing w r with
  | nil =>
    obtain rfl := Option.some.inj hrun
    exact ⟨r, hr, hq⟩
  | cons i is ih =>
    rw [TransitionSystem.run, Option.bind_eq_some_iff] at hrun
    obtain ⟨w₁, hs, hrun⟩ := hrun
    obtain ⟨r₁, hr₁, hrow⟩ := (step_next hs).row hr
    exact ih hrun hr₁ (hstep w i r r₁ hrow hq)

theorem OcChange.amountSat {c : OcCause} {o o' : OnchainOrder} {m m' : OcMeta}
    (h : OcChange c o m o' m') : o'.amountSat = o.amountSat ∧ o'.network = o.network := by
  cases h with
  | decide kind feeSat fold _ _ ho =>
    rw [ho]
    exact ⟨rfl, rfl⟩
  | _ => exact ⟨rfl, rfl⟩

/-- The amount of an order does not change, nor does its network. -/
theorem RowStep.amountSat {c : OcCause} {r r' : OcRow} (h : RowStep c r r') :
    r'.order.amountSat = r.order.amountSat ∧ r'.order.network = r.order.network := by
  cases h with
  | noted ho => rw [ho]; exact ⟨rfl, rfl⟩
  | changed o' hchange hlegal ho =>
    rw [ho]
    exact hchange.amountSat

/-- An order that has been claimed on these terms. -/
structure Claimed (env : OcEnv P) (info : SponsorClaimInfo) (d : EscrowDescriptor) (amountSat : ℚ)
    (r : OcRow) : Prop where
  amount : r.order.amountSat = amountSat
  escrow : escrowDescriptorFor env r.order = some d
  address : r.ocMeta.payoutAddress = some info.payoutAddress
  rate : r.ocMeta.feerateSatPerVb = some info.feerateSatPerVb
  past : r.order.state ≠ .listed

/-- The keys of an escrow, and the terms of a claim, are never changed after it. -/
theorem OcChange.escrow (env : OcEnv P) {c : OcCause} {o o' : OnchainOrder} {m m' : OcMeta}
    (h : OcChange c o m o' m') (hs : o.state ≠ .listed) (now : ℤ) :
    escrowDescriptorFor env (o.restamp o' now) = escrowDescriptorFor env o ∧
      m'.payoutAddress = m.payoutAddress ∧ m'.feerateSatPerVb = m.feerateSatPerVb := by
  cases h with
  | bond _ _ _ _ _ _ _ hlisted => exact absurd hlisted hs
  | decide kind feeSat fold _ _ ho =>
    rw [ho]
    exact ⟨rfl, rfl, rfl⟩
  | _ => exact ⟨rfl, rfl, rfl⟩

/-- A step keeps the terms of an order that has been claimed. -/
theorem RowStep.terms (env : OcEnv P) {c : OcCause} {r r' : OcRow} (h : RowStep c r r')
    (hs : r.order.state ≠ .listed) : r'.order.state ≠ .listed ∧
      escrowDescriptorFor env r'.order = escrowDescriptorFor env r.order ∧
      r'.ocMeta.payoutAddress = r.ocMeta.payoutAddress ∧
      r'.ocMeta.feerateSatPerVb = r.ocMeta.feerateSatPerVb := by
  cases h with
  | noted ho hm hv =>
    rw [ho]
    exact ⟨hs, rfl, OcMeta.of_record (·.payoutAddress) (fun _ => rfl) hm,
      OcMeta.of_record (·.feerateSatPerVb) (fun _ => rfl) hm⟩
  | changed o' hchange hlegal ho hv =>
    obtain ⟨hescrow, haddress, hrate⟩ := hchange.escrow env hs c.now
    refine ⟨?_, by rw [ho]; exact hescrow, haddress, hrate⟩
    rw [ho]
    intro hlisted
    have hlisted : o'.state = .listed := hlisted
    rw [hlisted, not_listed_of_transition] at hlegal
    obtain hsame | habsurd := hlegal
    · exact hs hsame.symm
    · cases habsurd

theorem RowStep.claimed {env : OcEnv P} {c : OcCause} {r r' : OcRow} {info : SponsorClaimInfo}
    {d : EscrowDescriptor} {amountSat : ℚ} (h : RowStep c r r') (hr : Claimed env info d amountSat r) :
    Claimed env info d amountSat r' := by
  obtain ⟨hs, hescrow, haddress, hrate⟩ := h.terms env hr.past
  exact ⟨h.amountSat.1.trans hr.amount, hescrow.trans hr.escrow, haddress.trans hr.address,
    hrate.trans hr.rate, hs⟩

/-- The claim of an event, made in `w`, is bonded in `w'`: at once for the named sponsor, or when the
bond that was planned for it is paid. -/
inductive Bonds (env : OcEnv P) (w : OcWorld) (event : OcEvent) (price : Option ℚ) (id : OrderId)
    (w' : OcWorld) : Prop
  | named (r r' : OcRow) (h : w.step env (.request .claim event price) = some w')
      (hevent : extractOrderId event.tags = some id) (hr : getOc id w.db = some r) (hlisted : r.order.state = .listed)
      (hr' : getOc id w'.db = some r') (hbonded : r'.order.state = .bonded)
  | paid (w₁ w₂ : OcWorld) (is : List OcInput) (c : OcCandidate) (r' : OcRow)
      (h : w.step env (.request .claim event price) = some w₁)
      (hnew : getCandidate c.paymentHash w.db = none)
      (hput : getCandidate c.paymentHash w₁.db = some c) (hc : c.isSponsor = true)
      (hid : c.orderId = id) (hrun : (ocSystem env).run w₁ is = some w₂)
      (htake : TakesBond env w₂ w' c r')

/-- What a step of a claim is: nothing, or the claim has been checked. -/
theorem step_claim {env : OcEnv P} {w w' : OcWorld} {event : OcEvent} {price : Option ℚ}
    (h : w.step env (.request .claim event price) = some w') : w'.db = w.db ∨
    ∃ row info feeSat dustSat, ClaimChecked (w.ctx env price) event w.db row info feeSat dustSat ∧
      ((w.ctx env price).bondOc row event.pubkey info none w.db = .ok (true, w'.db) ∨
        ∃ p inv db₁ hash blocks, plan env.keys w.now p w.db = .ok (inv, db₁) ∧
          putCandidate ⟨hash, row.order.orderId, event.pubkey, .sponsor info blocks, w.now⟩ db₁ =
            .ok w'.db) := by
  obtain rfl := Option.some.inj h
  unfold OcWorld.transact
  split
  · rename_i db hdb
    obtain ⟨⟨answer, db₁⟩, hhandle, hsame⟩ := Except.map_eq_ok_iff.mp hdb
    have hsame : db₁ = db := hsame
    subst hsame
    exact OcCtx.ocClaim_cases hhandle
  · exact .inl rfl

/-- The keys an escrow is made from. -/
theorem derive_of_escrowDescriptorFor {env : OcEnv P} {o : OnchainOrder} {d : EscrowDescriptor}
    (h : escrowDescriptorFor env o = some d) :
    ∃ keys, deriveEscrowAddress env.lib keys o.network o.timelockBlocks = .ok d := by
  unfold escrowDescriptorFor at h
  split at h
  · exact ⟨_, ok_of_toOption h⟩
  · cases h

/-- A claim that is bonded has been checked, on the row it was made for. -/
theorem Bonds.claimed {env : OcEnv P} {w w' : OcWorld} {event : OcEvent} {price : Option ℚ}
    {id : OrderId} (h : Bonds env w event price id w') :
    ∃ row info feeSat dustSat d, getOc id w.db = some row ∧
      ClaimChecked (w.ctx env price) event w.db row info feeSat dustSat ∧
      (∃ keys blocks, deriveEscrowAddress env.lib keys row.order.network blocks = .ok d) ∧
      ∃ r', getOc id w'.db = some r' ∧ Claimed env info d row.order.amountSat r' := by
  cases h with
  | named r r' h hevent hr hlisted hr' hbonded =>
    obtain hsame | ⟨row, info, feeSat, dustSat, hchecked, hbond | hplanned⟩ := step_claim h
    · rw [hsame, hr] at hr'
      obtain rfl := Option.some.inj hr'
      exact absurd (hlisted.symm.trans hbonded) (by decide)
    · obtain rfl := Option.some.inj (hchecked.named.symm.trans hevent)
      obtain ⟨d, hd, hescrow, hamount, haddress, hrate, hstate⟩ :=
        OcCtx.bondOc_true hchecked.found hbond hr'
      obtain ⟨keys, hkeys⟩ := derive_of_escrowDescriptorFor hd
      exact ⟨row, info, feeSat, dustSat, d, hchecked.found, hchecked, ⟨keys, _, hkeys⟩, r', hr',
        hamount, hescrow, haddress, hrate, by rw [hstate]; decide⟩
    · -- an invoice that is only planned bonds nothing
      obtain ⟨p, inv, db₁, hash, blocks, hplan, hput⟩ := hplanned
      have hcore := ((quiet_plan hplan).trans (quiet_putCandidate hput)).cores id
      rw [coreOf_eq_some hr, coreOf_eq_some hr'] at hcore
      have hcore : r'.core = r.core := Option.some.inj hcore
      have horder : r'.core.order = r.core.order := congrArg OcRow.order hcore
      have horder : r'.order = r.order := horder
      rw [horder, hlisted] at hbonded
      cases hbonded
  | paid w₁ w₂ is c r' h hnew hput hc hid hrun htake =>
    subst hid
    obtain hsame | ⟨row, info, feeSat, dustSat, hchecked, hbond | hplanned⟩ := step_claim h
    · rw [hsame] at hput
      cases hnew.symm.trans hput
    · exact absurd (OcCtx.noCandidate_bondOc hbond) (OcCtx.not_noCandidate hnew hput)
    · obtain ⟨p, inv, db₁, hash, blocks, hplan, hput'⟩ := hplanned
      have hplan : plan (w.ctx env price).env.keys (w.ctx env price).now p w.db = .ok (inv, db₁) := hplan
      obtain rfl := OcCtx.candidate_of_put hplan hput' hnew hput
      -- the row of the order is still listed, with the same amount, when the bond is paid
      obtain ⟨⟨inv', hstep, hhash, hid⟩, hcand, hrow, htaken⟩ := htake
      rw [if_pos hc] at htaken
      obtain ⟨hbonded, r₂, hr₂, hlisted⟩ := htaken
      obtain ⟨r₁, hr₁, hrow₁⟩ := (step_next h).row hchecked.found
      obtain ⟨r₂', hr₂', hamount, hnet⟩ := row_of_run (Q := fun r => r.order.amountSat =
        row.order.amountSat ∧ r.order.network = row.order.network)
        (fun w i r r' hrow hq => ⟨hrow.amountSat.1.trans hq.1, hrow.amountSat.2.trans hq.2⟩) hrun hr₁
        hrow₁.amountSat
      obtain rfl := Option.some.inj (hr₂.symm.trans hr₂')
      obtain rfl := Option.some.inj hstep
      unfold OcWorld.transact at hrow ⊢
      split at hrow
      · rename_i db hdb
        simp only [OcWorld.runHook, OcCtx.bondHooks, hhash, hcand] at hdb
        unfold OcCtx.onSponsorBond at hdb
        rw [hid, hr₂] at hdb
        simp only [Option.filter_some, hlisted, decide_true, if_true] at hdb
        obtain ⟨⟨bonded, db₂⟩, hbond, hdb⟩ := Except.bind_eq_ok_iff.mp hdb
        obtain rfl := Except.ok.inj hdb
        have hid₂ := orderId_of_getOc hr₂
        dsimp only at hrow hid₂
        cases bonded with
        | false =>
          -- without an escrow the order stays listed
          rw [if_neg Bool.false_ne_true, OcCtx.bondOc_false rfl hbond,
            getOc_congr (congrArg OcTables.orders (dispose_track _ _ w₂.db)), hr₂] at hrow
          obtain rfl := Option.some.inj hrow
          exact absurd (hlisted.symm.trans hbonded) (by decide)
        | true =>
          rw [if_pos rfl] at hrow
          obtain ⟨d, hd, hescrow, hamount', haddress, hrate, hstate⟩ :=
            OcCtx.bondOc_true (hid₂.symm ▸ hr₂) hbond (hid₂.symm ▸ hrow)
          obtain ⟨keys, hkeys⟩ := derive_of_escrowDescriptorFor hd
          have hkeys : deriveEscrowAddress env.lib keys row.order.network r₂.order.timelockBlocks =
            .ok d := hnet ▸ hkeys
          exact ⟨row, info, feeSat, dustSat, d, hchecked.found, hchecked, ⟨keys, _, hkeys⟩, r', hrow,
            hamount'.trans hamount, hescrow, haddress, hrate, by rw [hstate]; decide⟩
      · obtain rfl := Option.some.inj (hr₂.symm.trans hrow)
        exact absurd (hlisted.symm.trans hbonded) (by decide)

/-- **A claim that is accepted can be released.**  An order is listed, a claim of it is bonded, and
whatever happens then: the fee of a release is the one the claim was judged by, no more than a fifth
of the amount, and what it leaves is no dust; a release can be built for any output that funds the
order; and the watcher, when it funds the order, records it. -/
theorem release_always_built (env : OcEnv P) (hlib : env.lib.TapLeaves) {w₀ w₁ w w' w'' : OcWorld}
    {is js : List OcInput} {id : OrderId} {event : OcEvent} {price : Option ℚ}
    (hlist : Lists env w₀ w₁ id) (hrun : (ocSystem env).run w₁ is = some w)
    (hbonds : Bonds env w event price id w') (hrun' : (ocSystem env).run w' js = some w'') :
    ∃ row info feeSat dustSat d r, getOc id w.db = some row ∧
      ClaimChecked (w.ctx env price) event w.db row info feeSat dustSat ∧
      getOc id w''.db = some r ∧ escrowDescriptorFor env r.order = some d ∧
      releaseFeeFor env r.order r.ocMeta = some feeSat ∧
      feeSat ≤ r.order.amountSat * (1 / 5) ∧
      dustThresholdFor env.lib info.payoutAddress d = .ok dustSat ∧
      dustSat ≤ r.order.amountSat - feeSat ∧
      (∀ outpoint, ∃ tx, buildSettlementTx env.lib
        ⟨d, outpoint, r.order.amountSat, .release, info.payoutAddress, feeSat⟩ = .ok tx) ∧
      ∀ ctx : OcCtx P, ctx.env = env → ∀ outpoint confirmations priceKrw db,
        ctx.execute r (.fund outpoint confirmations priceKrw) db =
          (ctx.transition r (fun o => { o with
            state := .funded
            fundingOutpoint := some (formatOutpoint outpoint)
            fundingConfs := some confirmations
            fundedAt := some ctx.now
            presignDeadline := some (ctx.now + presignWindowSec)
            priceKrw := some priceKrw
            payoutSat := some (r.order.amountSat - feeSat)
            releaseFeeSat := some feeSat }) db).map Prod.snd := by
  obtain ⟨r₀, hr₀, hint, hpos⟩ := hlist.amount
  obtain ⟨row', hrow', hint, hpos⟩ := row_of_run (Q := fun r => r.order.amountSat.isInt = true ∧
    0 < r.order.amountSat) (fun w i r r' hrow hq => by rw [hrow.amountSat.1]; exact hq) hrun hr₀
    ⟨hint, hpos⟩
  obtain ⟨row, info, feeSat, dustSat, d, hrow, hchecked, ⟨keys, blocks, hd⟩, r', hr', hclaimed⟩ :=
    hbonds.claimed
  obtain rfl := Option.some.inj (hrow.symm.trans hrow')
  obtain ⟨r, hr, hclaimed⟩ := row_of_run (fun w i r r' hstep hq => RowStep.claimed hstep hq) hrun' hr'
    hclaimed
  -- the fee and the dust limit of the claim are those of the escrow
  obtain ⟨dummy, hdummy, hfee, hdust⟩ := claimFees_ok hchecked.fees
  have hfee : settlementFeeSat env.lib .release dummy info.payoutAddress info.feerateSatPerVb =
      .ok feeSat := hfee
  have hnet := (deriveEscrowAddress_ok hd).2.1
  have hnet' := (deriveEscrowAddress_ok hdummy).2.1
  have hfee : settlementFeeSat env.lib .release d info.payoutAddress info.feerateSatPerVb =
      .ok feeSat := by
    rw [← hfee]
    unfold settlementFeeSat
    rw [estimate_release hd hdummy]
  have hdust : dustThresholdFor env.lib info.payoutAddress d = .ok dustSat := by
    rw [← hdust, dustThresholdFor, dustThresholdFor, hnet, hnet']
    rfl
  obtain ⟨hshare, hleft⟩ := hchecked.rate
  have hrelease : releaseFeeFor env r.order r.ocMeta = some feeSat := by
    have hrate : info.feerateSatPerVb ≠ 0 := by
      simp only [settlementFeeSat, Except.bind_eq_ok_iff, throwUnless_eq_ok_iff] at hfee
      obtain ⟨-, hpos, -⟩ := hfee
      exact hpos.ne'
    have hgiven : given r.ocMeta.payoutAddress = some info.payoutAddress := by
      rw [hclaimed.address]
      exact Option.filter_eq_some_iff.mpr ⟨rfl, by simpa using hchecked.address⟩
    have hfilter : r.ocMeta.feerateSatPerVb.filter (· ≠ 0) = some info.feerateSatPerVb := by
      rw [hclaimed.rate]
      exact Option.filter_eq_some_iff.mpr ⟨rfl, by simpa using hrate⟩
    simp only [releaseFeeFor, hgiven, hfilter, hclaimed.escrow, hfee, Except.toOption]
  have hpositive : ¬ r.order.amountSat - feeSat ≤ 0 := by
    obtain ⟨decoded, -, rfl⟩ := Except.map_eq_ok_iff.mp hdust
    rw [hclaimed.amount]
    exact not_le.mpr ((dustByType_pos _).trans_le hleft)
  refine ⟨row, info, feeSat, dustSat, d, r, hrow, hchecked, hr, hclaimed.escrow, hrelease, ?_, hdust,
    ?_, ?_, ?_⟩
  · rw [hclaimed.amount]
    exact hshare
  · rw [hclaimed.amount]
    exact hleft
  · intro outpoint
    rw [hclaimed.amount]
    exact buildSettlementTx_release hlib hd hint hpos hfee hdust hleft outpoint
  · rintro ctx rfl outpoint confirmations priceKrw db
    simp only [OcCtx.execute, hrelease, if_neg hpositive]

/-! ### A sale to a named sponsor -/

/-- The library, on trees with any keys. -/
def claimLib : BtcSigner String :=
  { tradeLib with
    p2tr := fun _ tree _ =>
      match tree, samplePayment.tapLeafScript.getD [] with
      | some (.branch (.branch (.leaf a) (.leaf b)) (.branch (.leaf c) (.leaf d))),
          [ra, rb, rc, rd] =>
        .ok { samplePayment with tapLeafScript := some [(ra.1, a ++ [0xc0]), (rb.1, b ++ [0xc0]),
          (rc.1, c ++ [0xc0]), (rd.1, d ++ [0xc0])] }
      | _, _ => .ok sampleSingle }

theorem tapLeaves_claimLib : claimLib.TapLeaves := by
  intro key a b c d net payment scripts hpay hscripts
  obtain rfl := Except.ok.inj hpay
  obtain rfl := Option.some.inj hscripts
  simp only [List.map_cons, List.map_nil, List.dropLast_concat]
  exact List.Perm.refl _

/-- The daemon of the sale. -/
def claimEnv : OcEnv String := { tradeEnv with lib := claimLib }

/-- The sale and its claim. -/
def saleRequest : OcInput :=
  .request .designatedOrderRequest ⟨"e1", refundKeys.customer, refundKeys_customer, 0,
    [["a", "38383:daemon:trade-1"], ["expiration", "3600"]], .payload ⟨none, none, none, none,
      some ⟨50000, refundKeys.customer, none, sampleSingle.address.getD "", refundKeys.sponsor⟩⟩⟩ none

def saleClaim : OcEvent :=
  ⟨"e2", refundKeys.sponsor, refundKeys_sponsor, 0,
    [["a", "38383:daemon:trade-1"], ["sponsor-xonly", refundKeys.sponsor]],
    .payload ⟨none, sampleSingle.address, some 2, none, none⟩⟩

/-- The claim is bonded at once, and a release can be built. -/
theorem release_always_built_sale : ∃ (w' : OcWorld) (r : OcRow) (d : EscrowDescriptor)
    (payoutAddress : String) (feeSat : ℚ), getOc "trade-1" w'.db = some r ∧
    r.order.state = .bonded ∧ escrowDescriptorFor claimEnv r.order = some d ∧
    releaseFeeFor claimEnv r.order r.ocMeta = some feeSat ∧
    ∀ outpoint, ∃ tx, buildSettlementTx claimLib
      ⟨d, outpoint, r.order.amountSat, .release, payoutAddress, feeSat⟩ = .ok tx := by
  have hrun : ((ocSystem claimEnv).run (OcWorld.init 0) [.refreshFees ⟨10, 5⟩]).any (fun w₀ =>
      getOc "trade-1" w₀.db = none && (w₀.step claimEnv saleRequest).any fun w =>
        (getOc "trade-1" w.db).any (fun r => r.order.state = .listed) &&
        (w.step claimEnv (.request .claim saleClaim none)).any fun w' =>
          (getOc "trade-1" w'.db).any fun r => r.order.state = .bonded) = true := by
    decide +kernel
  simp only [Option.any_eq_true, Bool.and_eq_true, decide_eq_true_eq] at hrun
  obtain ⟨w₀, -, hnew, w, hw, ⟨r₁, hr₁, hlisted⟩, w', hw', r', hr', hbonded⟩ := hrun
  have hevent : extractOrderId saleClaim.tags = some "trade-1" := by decide
  have hrun : (ocSystem claimEnv).run w [] = some w := rfl
  have hrun' : (ocSystem claimEnv).run w' [] = some w' := rfl
  obtain ⟨row, info, feeSat, dustSat, d, r, -, -, hr, hd, hfee, -, -, -, hbuilt, -⟩ :=
    release_always_built claimEnv tapLeaves_claimLib
      (.named _ none r₁ hw hnew hr₁) hrun (.named r₁ r' hw' hevent hr₁ hlisted hr' hbonded) hrun'
  obtain rfl := Option.some.inj (hr'.symm.trans hr)
  exact ⟨w', r', d, info.payoutAddress, feeSat, hr', hbonded, hd, hfee, hbuilt⟩

end LnPay
