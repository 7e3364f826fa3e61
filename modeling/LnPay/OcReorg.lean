/-
# A reorganisation leaves nothing behind (`daemon/src/onchain/watcher.ts`, `handlers.ts`)

When the chain takes the funding back, the price is given up and the order waits
in `bonded` again.  One patch names the fields that go; other handlers fill them,
at other times.

* `OnchainOrder.Clear`: no field of a trade is left, whenever the order is listed
  or bonded;
* `Entered`: the deadline of the funding is that of the last time it became bonded;
* `same_of_verified`: the presignature stays in the private part, but it passes
  for the transaction only for which it was given.
-/
import LnPay.OcRelease
import LnPay.OcWindow

namespace LnPay

variable {P : Type}

/-! ## Nothing is left -/

/-- No field of a trade is set. -/
structure OnchainOrder.Clear (o : OnchainOrder) : Prop where
  blank : o.Blank
  outpoint : o.fundingOutpoint = none
  account : o.accountSentAt = none ∧ o.krwDeadline = none
  kind : o.settlementKind = none

/-- What is not set before money has flowed. -/
structure OcRow.Early (r : OcRow) : Prop where
  clear : r.order.state = .listed ∨ r.order.state = .bonded → r.order.Clear
  early : r.order.state = .funded ∨ r.order.state = .presigned →
    r.order.remittedAt = none ∧ r.order.settlementTxid = none ∧ r.order.settlementKind = none

/-- What a change from an early state finds. -/
theorem OcRow.Early.unremitted {r : OcRow} (h : r.Early)
    (hs : r.order.state = .listed ∨ r.order.state = .bonded ∨ r.order.state = .funded ∨
      r.order.state = .presigned) :
    r.order.remittedAt = none ∧ r.order.settlementTxid = none ∧ r.order.settlementKind = none := by
  obtain hs | hs | hs := hs
  · have hclear := h.clear (.inl hs)
    exact ⟨hclear.blank.times.2.2.1, hclear.blank.settlement, hclear.kind⟩
  · have hclear := h.clear (.inr hs)
    exact ⟨hclear.blank.times.2.2.1, hclear.blank.settlement, hclear.kind⟩
  · exact h.early hs

/-- The states from which an order becomes bonded or funded. -/
theorem early_source {a b : OnchainState} (h : b = a ∨ canOnchainTransition a b = true)
    (hb : b = .bonded ∨ b = .funded) :
    a = .listed ∨ a = .bonded ∨ a = .funded ∨ a = .presigned := by
  obtain rfl | rfl := hb <;> cases a <;> simp [canOnchainTransition, onchainTransitions] at h ⊢

theorem OcChange.early {c : OcCause} {r : OcRow} {o' : OnchainOrder} {m' : OcMeta}
    (h : OcChange c r.order r.ocMeta.record o' m')
    (hlegal : o'.state = r.order.state ∨ canOnchainTransition r.order.state o'.state = true)
    (hr : r.Early) :
    (o'.state = .listed ∨ o'.state = .bonded → o'.Clear) ∧
      (o'.state = .funded ∨ o'.state = .presigned →
        o'.remittedAt = none ∧ o'.settlementTxid = none ∧ o'.settlementKind = none) := by
  cases h with
  | bond sponsor info adminXonly address blocks hash expiresAt hlisted =>
    have hclear := hr.clear (.inl hlisted)
    exact ⟨fun _ => ⟨⟨hclear.blank.price, hclear.blank.deadlines, hclear.blank.times,
      hclear.blank.settlement⟩, hclear.outpoint, hclear.account, hclear.kind⟩, by simp⟩
  | fund outpoint confirmations priceKrw fee hact =>
    have hnone := hr.unremitted (early_source hlegal (.inr rfl))
    exact ⟨by simp, fun _ => hnone⟩
  | decide kind feeSat fold o₁ hmay ho hb =>
    subst ho
    obtain ⟨-, hruling⟩ := mayDecide_state hmay
    dsimp only
    split
    · rename_i hr
      rw [hruling hr]
      simp
    · simp
  | presig psbt hfunded hk =>
    exact ⟨by simp, fun _ => hr.early (.inl hfunded)⟩
  | account commitment hpresigned hk =>
    have hstate : r.order.state = .presigned := hpresigned
    exact ⟨by simp [hstate], fun _ => hr.early (.inr hpresigned)⟩
  | objection hpresigned hk =>
    have hstate : r.order.state = .presigned := hpresigned
    exact ⟨by simp [hstate], fun _ => hr.early (.inr hpresigned)⟩
  | reorg hact =>
    obtain ⟨hremitted, htxid, hkind⟩ := hr.unremitted (early_source hlegal (.inl rfl))
    exact ⟨fun _ => ⟨⟨⟨rfl, rfl, rfl⟩, ⟨rfl, rfl⟩, ⟨rfl, rfl, hremitted, rfl⟩, htxid⟩, rfl, ⟨rfl, rfl⟩,
      hkind⟩, by simp⟩
  | confirmed kind => cases kind <;> simp [SettlementKind.terminal]
  | resolve kind hk hkind hs =>
    obtain hs | hs | hs := hs <;> simp [hs]
  | remit | dispute | cancel | cosign | adopt | sweep => simp

theorem RowStep.early {c : OcCause} {r r' : OcRow} (h : RowStep c r r') (hr : r.Early) : r'.Early := by
  cases h with
  | noted ho hm hv => exact ⟨by rw [ho]; exact hr.clear, by rw [ho]; exact hr.early⟩
  | changed o' hchange hlegal ho hv =>
    obtain ⟨hclear, hearly⟩ := hchange.early hlegal hr
    refine ⟨fun hs => ?_, fun hs => ?_⟩
    · rw [ho] at hs ⊢
      have hclear := hclear hs
      exact ⟨⟨hclear.blank.price, hclear.blank.deadlines, hclear.blank.times,
        hclear.blank.settlement⟩, hclear.outpoint, hclear.account, hclear.kind⟩
    · rw [ho] at hs ⊢
      exact hearly hs

/-- In every run, an order that is listed or bonded has no field of a trade. -/
theorem early_of_reachable {env : OcEnv P} {w : OcWorld} (hw : (ocSystem env).Reachable w)
    {id : OrderId} {r : OcRow} (hr : getOc id w.db = some r) : r.Early :=
  rows_invariant (fun r hfr => ⟨fun _ => ⟨hfr.blank, hfr.unpinned, hfr.untimed, hfr.undecided⟩,
    fun hs => by rw [hfr.listed] at hs; simp at hs⟩) (fun _ _ _ _ hstep => hstep.early) hw hr

/-! ## The deadline of the funding -/

/-- A bonded order last became bonded at `t`. -/
inductive Entered (env : OcEnv P) (id : OrderId) : OcWorld → ℤ → Prop
  | enters {w w' : OcWorld} {i : OcInput} {r' : OcRow} (hw : (ocSystem env).Reachable w)
      (h : w.step env i = some w') (hnot : ∀ r, getOc id w.db = some r → r.order.state ≠ .bonded)
      (hr' : getOc id w'.db = some r') (hs' : r'.order.state = .bonded) : Entered env id w' w.now
  | stays {w w' : OcWorld} {i : OcInput} {t : ℤ} {r r' : OcRow} (he : Entered env id w t)
      (h : w.step env i = some w') (hr : getOc id w.db = some r) (hs : r.order.state = .bonded)
      (hr' : getOc id w'.db = some r') (hs' : r'.order.state = .bonded) : Entered env id w' t

theorem OcChange.enters {c : OcCause} {o o' : OnchainOrder} {m m' : OcMeta}
    (h : OcChange c o m o' m') (hs : o.state ≠ .bonded) (hs' : o'.state = .bonded) :
    o'.fundingDeadline = some (c.now + fundingWindowSec) := by
  cases h with
  | bond | reorg => rfl
  | decide kind feeSat fold _ _ ho =>
    rw [ho] at hs'
    dsimp only at hs'
    split at hs'
    · exact absurd hs' hs
    · cases hs'
  | confirmed kind =>
    dsimp only at hs'
    cases kind <;> cases hs'
  | account | objection | resolve => exact absurd hs' hs
  | fund | presig | remit | dispute | cancel | cosign | adopt | sweep => cases hs'

theorem OcChange.staysBonded {c : OcCause} {o o' : OnchainOrder} {m m' : OcMeta}
    (h : OcChange c o m o' m') (hs : o.state = .bonded) (hs' : o'.state = .bonded)
    (hreorg : ¬ c.acts o .reorg) : o'.fundingDeadline = o.fundingDeadline := by
  cases h with
  | reorg hact => exact absurd hact hreorg
  | bond _ _ _ _ _ _ _ hlisted => cases hs.symm.trans hlisted
  | decide kind feeSat fold _ _ ho => rw [ho]
  | account | objection | resolve | confirmed => rfl
  | fund | presig | remit | dispute | cancel | cosign | adopt | sweep => cases hs'

/-- Only an order with a funding goes back. -/
theorem not_reorg_of_bonded {env : OcEnv P} {w : OcWorld} {i : OcInput} {o : OnchainOrder}
    (hs : o.state = .bonded) : ¬ (w.cause env i).acts o .reorg := by
  intro hact
  obtain ⟨ctx, hdecide⟩ := Judged.decided hact
  obtain ⟨hstate, -⟩ := reorg_of_decide hdecide
  rw [hs] at hstate
  simp at hstate

/-- In every run, the deadline is that of the last time the order became bonded. -/
theorem Entered.deadline {env : OcEnv P} {id : OrderId} {w : OcWorld} {t : ℤ}
    (h : Entered env id w t) {r : OcRow} (hr : getOc id w.db = some r) :
    r.order.fundingDeadline = some (t + fundingWindowSec) := by
  induction h generalizing r with
  | enters hw h hnot hr' hs' =>
    obtain rfl := Option.some.inj (hr'.symm.trans hr)
    obtain ⟨r₀, hr₀, hrow⟩ | hfresh := (step_next h).back hr'
    · cases hrow with
      | noted ho => exact absurd (ho ▸ hs') (hnot r₀ hr₀)
      | changed o' hchange hlegal ho hv =>
        rw [ho] at hs' ⊢
        exact hchange.enters (hnot r₀ hr₀) hs'
    · exact absurd (hfresh.listed.symm.trans hs') (by decide)
  | stays he h hr₀ hs hr' hs' ih =>
    obtain rfl := Option.some.inj (hr'.symm.trans hr)
    obtain ⟨r₁, hr₁, hrow⟩ := (step_next h).row hr₀
    obtain rfl := Option.some.inj (hr'.symm.trans hr₁)
    cases hrow with
    | noted ho =>
      rw [ho]
      exact ih hr₀
    | changed o' hchange hlegal ho hv =>
      rw [ho] at hs' ⊢
      exact (hchange.staysBonded hs hs' (not_reorg_of_bonded hs)).trans (ih hr₀)

/-- A bonded order has become so at some time. -/
theorem entered_of_reachable {env : OcEnv P} {w : OcWorld} (hw : (ocSystem env).Reachable w)
    {id : OrderId} {r : OcRow} (hr : getOc id w.db = some r) (hs : r.order.state = .bonded) :
    ∃ t, Entered env id w t := by
  suffices hall : ∀ r, getOc id w.db = some r → r.order.state = .bonded → ∃ t, Entered env id w t from
    hall r hr hs
  refine TransitionSystem.invariant (M := ocSystem env) (P := fun w => ∀ r, getOc id w.db = some r →
    r.order.state = .bonded → ∃ t, Entered env id w t) ?_ ?_ hw
  · rintro _ ⟨now, rfl⟩ r hr
    exact absurd hr (by simp [OcWorld.init, OcWorld.emptyDb, getOc])
  · intro w i w' hw ih h r' hr' hs'
    by_cases hbonded : ∃ r, getOc id w.db = some r ∧ r.order.state = .bonded
    · obtain ⟨r, hr, hs⟩ := hbonded
      obtain ⟨t, ht⟩ := ih r hr hs
      exact ⟨t, .stays ht h hr hs hr' hs'⟩
    · exact ⟨w.now, .enters hw h (fun r hr hs => hbonded ⟨r, hr, hs⟩) hr' hs'⟩

/-! ## A presignature that was given before -/

theorem outpoint_eq {o o' : Outpoint} (h : o.txid = o'.txid) (h' : o.vout = o'.vout) : o = o' := by
  cases o
  cases o'
  exact congrArg₂ Outpoint.mk h h'

/-- A PSBT that passes for two settlements passes for one transaction. -/
theorem same_of_verified {lib : BtcSigner P} (htxid : lib.TxidCommits) {psbt x x₀ : String}
    {p p₀ : BuildSettlementParams} {g g₀ : Bytes × Bytes}
    (h₀ : verifyPresignature lib psbt p₀ x₀ = .ok g₀) (h : verifyPresignature lib psbt p x = .ok g) :
    p.outpoint = p₀.outpoint ∧ p.valueSat - p.feeSat = p₀.valueSat - p₀.feeSat ∧
      outputScriptFor lib p.destination p.descriptor =
        outputScriptFor lib p₀.destination p₀.descriptor := by
  obtain ⟨sig₀, script₀⟩ := g₀
  obtain ⟨sig, script⟩ := g
  obtain ⟨mine₀, theirs₀, leaf₀, key₀, hp₀, -⟩ := presigned_of_verifyPresignature h₀
  obtain ⟨mine, theirs, leaf, key, hp, -⟩ := presigned_of_verifyPresignature h
  obtain rfl := Except.ok.inj (hp.decoded.symm.trans hp₀.decoded)
  obtain ⟨id₀, hid₀, hmine₀⟩ := hp₀.sameTxid
  obtain ⟨id, hid, hmine⟩ := hp.sameTxid
  obtain rfl := Except.ok.inj (hid.symm.trans hid₀)
  have houtline := htxid _ _ _ hmine hmine₀
  obtain ⟨_, _, script₀, _, paid₀, -, -, hscript₀, -, hpaid₀, -, -, -, -, hout₀⟩ :=
    buildSettlementTx_ok hp₀.built
  obtain ⟨_, _, script, _, paid, -, -, hscript, -, hpaid, -, -, -, -, hout⟩ :=
    buildSettlementTx_ok hp.built
  obtain ⟨i₀, hin₀, htx₀, hindex₀, -⟩ := buildSettlementTx_input hp₀.built
  obtain ⟨i, hin, htx, hindex, -⟩ := buildSettlementTx_input hp.built
  simp only [BtcTransaction.outline, TxOutline.mk.injEq, hin, hin₀, hout, hout₀, List.map_cons,
    List.map_nil, List.cons.injEq, Prod.mk.injEq, htx, htx₀, hindex, hindex₀, Option.some.injEq,
    TxOutput.mk.injEq, and_true] at houtline
  obtain ⟨-, -, ⟨htxidEq, hvoutEq, -⟩, hscriptEq, hpaidEq⟩ := houtline
  refine ⟨?_, ?_, ?_⟩
  · exact outpoint_eq htxidEq hvoutEq
  · rw [← hpaid, ← hpaid₀, hpaidEq]
  · rw [hscript, hscript₀, hscriptEq]

namespace OcCtx

variable {ctx : OcCtx P} {db db' : OcDb} {event : OcEvent} {answer : OcAnswer}

/-- A presignature changes nothing, or it has passed for the settlement of the order. -/
theorem ocPresig_cases {row : OcRow} (h : ctx.ocPresig event row db = .ok (answer, db')) :
    db' = db ∨ ∃ p psbt g db₁ patch,
      settlementParamsFor ctx.env row.order row.ocMeta .release row.order.settlementFeeSat = some p ∧
      verifyPresignature ctx.env.lib psbt p (row.order.sponsorXonly.getD "") = .ok g ∧
      db₁ = setOc ctx.now row.order.orderId patch (fun m => { m with presigPsbt := some psbt }) db ∧
      db'.track.orders = db₁.track.orders := by
  have hsame : ∀ {a : OcAnswer}, (.ok (a, db) : OcHandled) = .ok (answer, db') → db' = db :=
    fun heq => (Prod.mk.inj (Except.ok.inj heq)).2.symm
  unfold ocPresig at h
  dsimp only at h
  split at h
  · exact .inl (hsame h)
  · split at h
    · exact .inl (hsame h)
    · split at h
      · exact .inl (hsame h)
      · split at h
        · exact .inl (hsame h)
        · rename_i p hp
          obtain ⟨address, -, hp⟩ := Option.bind_eq_some_iff.mp hp
          split at h
          · exact .inl (hsame h)
          · split at h
            · exact .inl (hsame h)
            · rename_i psbt hpsbt x g hverify
              obtain ⟨⟨o, db₁⟩, hup, h⟩ := Except.bind_eq_ok_iff.mp (accepted_ok h)
              obtain rfl := Except.ok.inj h
              obtain ⟨_, -, -, hdb⟩ := updateOc_ok hup
              exact .inr ⟨p, psbt, g, db₁, _, hp, hverify, hdb, by
                rw [OcCtx.sendOcSignRequest, Db.enqueue_track]⟩

end OcCtx

/-- A presignature is accepted and stored; `p` is the settlement the order has then. -/
structure StoresPresig (env : OcEnv P) (w w' : OcWorld) (id : OrderId) (psbt : String)
    (p : BuildSettlementParams) : Prop where
  step : ∃ event price, w.step env (.request .presig event price) = some w'
  before : ∃ r, getOc id w.db = some r ∧ r.order.state = .funded ∧
    settlementParamsFor env r.order r.ocMeta .release r.order.settlementFeeSat = some p
  after : ∃ r', getOc id w'.db = some r' ∧ r'.order.state = .presigned ∧
    r'.ocMeta.presigPsbt = some psbt

/-- What is stored has passed. -/
theorem StoresPresig.verified {env : OcEnv P} {w w' : OcWorld} {id : OrderId} {psbt : String}
    {p : BuildSettlementParams} (h : StoresPresig env w w' id psbt p) :
    ∃ x g, verifyPresignature env.lib psbt p x = .ok g := by
  obtain ⟨⟨event, price, hstep⟩, ⟨r, hr, hs, hp⟩, r', hr', hs', hpsbt⟩ := h
  have hkept : ∀ db, getOc id db = some r' → db = w.db → False := by
    intro db hr' hsame
    rw [hsame, hr] at hr'
    obtain rfl := Option.some.inj hr'
    exact absurd (hs.symm.trans hs') (by decide)
  obtain rfl := Option.some.inj hstep
  unfold OcWorld.transact at hr'
  split at hr'
  · rename_i db hdb
    obtain ⟨⟨answer, db₁⟩, hhandle, hsame⟩ := Except.map_eq_ok_iff.mp hdb
    have hsame : db₁ = db := hsame
    subst hsame
    have hr' : getOc id db₁ = some r' := hr'
    have hkept := hkept db₁ hr'
    have hhandle : OcCtx.withRow event w.db (w.ctx env price).ocPresig = .ok (answer, db₁) := hhandle
    unfold OcCtx.withRow at hhandle
    split at hhandle
    · exact (hkept (Prod.mk.inj (Except.ok.inj hhandle)).2.symm).elim
    · split at hhandle
      · exact (hkept (Prod.mk.inj (Except.ok.inj hhandle)).2.symm).elim
      · rename_i id' _ row hrow
        obtain hsame | ⟨p', psbt', g, db₂, patch, hp', hverify, hdb₂, horders⟩ :=
          OcCtx.ocPresig_cases hhandle
        · exact (hkept hsame).elim
        · have hid := orderId_of_getOc hrow
          rw [getOc_congr horders, hdb₂, getOc_setOc] at hr'
          by_cases heq : id = row.order.orderId
          · rw [if_pos heq] at hr'
            rw [heq, hid] at hr
            obtain rfl := Option.some.inj (hrow.symm.trans hr)
            obtain rfl := Option.some.inj (hp.symm.trans hp')
            rw [heq, hid, hrow] at hr'
            obtain rfl := Option.some.inj hr'
            obtain rfl : psbt' = psbt := Option.some.inj hpsbt
            exact ⟨_, g, hverify⟩
          · rw [if_neg heq, hr] at hr'
            obtain rfl := Option.some.inj hr'
            exact absurd (hs.symm.trans hs') (by decide)
  · exact (hkept w.db hr' rfl).elim

/-- A release is completed with a presignature that passes for it. -/
theorem completeSettlement_release {ctx : OcCtx P} {row : OcRow} {p : BuildSettlementParams}
    {signer psbt : String} {sig leafScript : Bytes} {rawHex txid : String}
    (h : ctx.completeSettlement row true p signer sig leafScript = .ok (some (rawHex, txid)))
    (hpsbt : row.ocMeta.presigPsbt = some psbt) :
    ∃ x g, verifyPresignature ctx.env.lib psbt p x = .ok g := by
  unfold OcCtx.completeSettlement at h
  obtain ⟨tx, -, h⟩ := Except.bind_eq_ok_iff.mp h
  obtain ⟨tx', -, h⟩ := Except.bind_eq_ok_iff.mp h
  rw [if_pos rfl] at h
  split at h
  · rename_i sponsorSig sponsorLeaf hmap
    obtain ⟨psbt', hgiven, hverify⟩ := Option.map_eq_some_iff.mp hmap
    obtain rfl := Option.some.inj (hpsbt.symm.trans (given_eq_some hgiven))
    exact ⟨_, _, hverify⟩
  · cases Except.ok.inj h

/-- An order becomes `settling` by a release through a cosignature, or because it was seen on the
chain. -/
theorem OcChange.released {c : OcCause} {o o' : OnchainOrder} {m m' : OcMeta}
    (h : OcChange c o m o' m') (hs : o.state ≠ .settling) (hs' : o'.state = .settling)
    (hk : o'.settlementKind = some .release) :
    (∃ txid rawHex, c.completes o m .release txid rawHex) ∨
      ∃ txid leaf, c.acts o (.observeSpend txid leaf) := by
  cases h with
  | cosign kind txid rawHex _ _ _ ht =>
    obtain rfl := Option.some.inj hk
    exact .inl ⟨txid, rawHex, ht⟩
  | adopt txid leaf kind settlingAt _ hact => exact .inr ⟨txid, leaf, hact⟩
  | decide kind feeSat fold _ _ ho =>
    rw [ho] at hs'
    dsimp only at hs'
    split at hs'
    · exact absurd hs' hs
    · cases hs'
  | confirmed kind =>
    dsimp only at hs'
    cases kind <;> cases hs'
  | account | objection | resolve => exact absurd hs' hs
  | bond | fund | presig | remit | dispute | cancel | reorg | sweep => cases hs'

/-- The settlements of one claim by a release differ in the output and the fee only. -/
theorem settlementParams_eq {env : OcEnv P} {o o₀ : OnchainOrder} {m m₀ : OcMeta} {fee fee₀ : Option ℚ}
    {p p₀ : BuildSettlementParams} (h₀ : settlementParamsFor env o₀ m₀ .release fee₀ = some p₀)
    (h : settlementParamsFor env o m .release fee = some p)
    (hescrow : escrowDescriptorFor env o = escrowDescriptorFor env o₀)
    (haddress : m.payoutAddress = m₀.payoutAddress) (hamount : o.amountSat = o₀.amountSat)
    (houtpoint : p.outpoint = p₀.outpoint)
    (hleft : p.valueSat - p.feeSat = p₀.valueSat - p₀.feeSat) : p = p₀ := by
  unfold settlementParamsFor at h h₀
  rw [hescrow] at h
  split at h₀
  · rename_i d₀ out₀ hd₀ hout₀
    rw [hd₀] at h
    split at h
    · rename_i d out hd hout
      obtain rfl := Option.some.inj hd
      dsimp only at h h₀
      rw [haddress] at h
      split at h₀
      · rename_i dest₀ f₀ hdest₀ hf₀
        rw [hdest₀] at h
        split at h
        · rename_i dest f hdest hf
          obtain rfl := Option.some.inj hdest
          obtain rfl := Option.some.inj h
          obtain rfl := Option.some.inj h₀
          dsimp only at houtpoint hleft ⊢
          rw [hamount, sub_right_inj] at hleft
          rw [houtpoint, hleft, hamount]
        · cases h
      · cases h₀
    · cases h
  · cases h₀

/-- **A reorganisation leaves nothing behind.**  Over all runs, an order that is listed or bonded has
no field of a trade, and the deadline of its funding is that of the last time it became bonded; and
whatever happens after a presignature has been stored, it completes a release on the terms only for
which it passed: the same output, amount, fee and address. -/
theorem reorg_leaves_nothing (env : OcEnv P) (htxid : env.lib.TxidCommits) :
    (∀ w id r, (ocSystem env).Reachable w → getOc id w.db = some r →
      r.order.state = .listed ∨ r.order.state = .bonded → r.order.Clear) ∧
    (∀ w id r, (ocSystem env).Reachable w → getOc id w.db = some r → r.order.state = .bonded →
      (∃ t, Entered env id w t) ∧
      ∀ t, Entered env id w t → r.order.fundingDeadline = some (t + fundingWindowSec)) ∧
    ∀ w₀ w₁ w w' is id psbt p r r' event price, StoresPresig env w₀ w₁ id psbt p →
      (ocSystem env).run w₁ is = some w → getOc id w.db = some r →
      r.ocMeta.presigPsbt = some psbt →
      w.step env (.request .cosign event price) = some w' → getOc id w'.db = some r' →
      r.order.state ≠ .settling → r'.order.state = .settling →
      r'.order.settlementKind = some .release →
      settlementParamsFor env r.order r.ocMeta .release r.order.settlementFeeSat = some p := by
  refine ⟨fun w id r hw hr => (early_of_reachable hw hr).clear, fun w id r hw hr hs =>
    ⟨entered_of_reachable hw hr hs, fun t ht => ht.deadline hr⟩, ?_⟩
  intro w₀ w₁ w w' is id psbt p r r' event price hstores hrun hr hpsbt hstep hr' hs hs' hk
  obtain ⟨x, g, hverify₀⟩ := hstores.verified
  obtain ⟨⟨event₀, price₀, hstep₀⟩, ⟨r₀, hr₀, hfunded, hp⟩, r₁, hr₁, -⟩ := hstores
  -- the escrow, the address and the amount are those of the order then
  obtain ⟨r₁', hr₁', hrow₁⟩ := (step_next hstep₀).row hr₀
  obtain rfl := Option.some.inj (hr₁.symm.trans hr₁')
  have hpast : r₀.order.state ≠ .listed := by
    rw [hfunded]
    decide
  have hkeep : ∀ (w : OcWorld) (i : OcInput) (r r' : OcRow), RowStep (w.cause env i) r r' →
      (r.order.state ≠ .listed ∧ escrowDescriptorFor env r.order = escrowDescriptorFor env r₀.order ∧
        r.ocMeta.payoutAddress = r₀.ocMeta.payoutAddress ∧ r.order.amountSat = r₀.order.amountSat) →
      (r'.order.state ≠ .listed ∧ escrowDescriptorFor env r'.order = escrowDescriptorFor env r₀.order ∧
        r'.ocMeta.payoutAddress = r₀.ocMeta.payoutAddress ∧
        r'.order.amountSat = r₀.order.amountSat) := by
    intro w i r r' hrow ⟨hs, hescrow, haddress, hamount⟩
    obtain ⟨hs', hescrow', haddress', -⟩ := hrow.terms env hs
    exact ⟨hs', hescrow'.trans hescrow, haddress'.trans haddress, hrow.amountSat.1.trans hamount⟩
  obtain ⟨r₂, hr₂, -, hescrow, haddress, hamount⟩ := row_of_run hkeep hrun hr₁
    (hkeep w₀ _ r₀ r₁ hrow₁ ⟨hpast, rfl, rfl, rfl⟩)
  obtain rfl := Option.some.inj (hr.symm.trans hr₂)
  -- the release is completed with the presignature, so that it passes for it
  obtain ⟨r₃, hr₃, hrow⟩ := (step_next hstep).row hr
  obtain rfl := Option.some.inj (hr'.symm.trans hr₃)
  have hcompletes : ∃ event txid rawHex,
      Completes env event r.order r.ocMeta.record .release txid rawHex := by
    cases hrow with
    | noted ho => exact absurd (ho ▸ hs') hs
    | changed o' hchange hlegal ho hv =>
      rw [ho] at hs' hk
      obtain ⟨txid, rawHex, event, price, -, hcompletes⟩ | ⟨txid, leaf, hact⟩ :=
        hchange.released hs hs' hk
      · exact ⟨event, txid, rawHex, hcompletes⟩
      · cases hact
  obtain ⟨event', txid, rawHex, expected, signer, psbt', sig, leafScript, hexpected, -, -, -, hdone⟩ :=
    hcompletes
  obtain ⟨x', g', hverify⟩ := completeSettlement_release hdone hpsbt
  have hexpected : settlementParamsFor env r.order r.ocMeta .release r.order.settlementFeeSat =
      some expected := hexpected
  obtain ⟨houtpoint, hleft, -⟩ := same_of_verified htxid hverify₀ hverify
  rw [hexpected]
  exact congrArg some (settlementParams_eq hp hexpected hescrow haddress hamount houtpoint hleft)

/-! ### A funding that is taken back -/

/-- The library on the release; an id stands for the whole transaction but its witness. -/
def reorgLib : BtcSigner String :=
  { releaseLib with
    txid := fun tx =>
      if tx.outline = releaseTx.outline then
        .ok "a31b719b131bc2f62cf0c37ca98f7a0dd49be6366107045fbbc4c7a3ab93de89"
      else .error "Unknown transaction" }

theorem txidCommits_reorgLib : reorgLib.TxidCommits := by
  refine txidCommits_of_outline releaseTx.outline fun tx id h => ?_
  simp only [reorgLib] at h
  split at h
  · assumption
  · cases h

/-- The daemon of the trade. -/
def reorgEnv : OcEnv String := { releaseEnv with lib := reorgLib }

/-- What the explorer says when the chain has taken the funding back. -/
def reorgAnswers : ChainAnswers :=
  { tradeAnswers with utxos := .known [], fundingTx := .notFound }

/-- The funded trade goes back to `bonded`; or the sponsor presigns it first. -/
theorem reorg_runs : ((ocSystem reorgEnv).run (OcWorld.init 0) tradeInputs).any (fun w₀ =>
    (getOc "trade-1" w₀.db).any (fun r => r.order.state = .funded ∧
      (settlementParamsFor reorgEnv r.order r.ocMeta .release r.order.settlementFeeSat).isSome) &&
    (((ocSystem reorgEnv).run w₀ [.tick 60, .poll, .judge reorgAnswers none]).any fun w =>
      (getOc "trade-1" w.db).any fun r => r.order.state = .bonded) &&
    (w₀.step reorgEnv (tradePresig 0)).any fun w =>
      (getOc "trade-1" w.db).any fun r => r.order.state = .presigned ∧
        r.ocMeta.presigPsbt = some releasePsbt) = true := by
  unfold reorgEnv reorgLib releaseEnv releaseLib releaseTx tradeEnv tradeLib sampleLib
  rw [samplePayment_eq, sampleSingle_eq, releaseLeaf_eq, releaseLeafHash_eq, releaseSig_eq,
    releaseSighash_eq]
  decide +kernel

/-- The funded trade goes back to `bonded`, and nothing is left; where the sponsor presigns it first,
every release that is completed with the presignature is the one it passed for. -/
theorem reorg_leaves_nothing_sale : ∃ (w₀ w w₁ : OcWorld) (r₀ r : OcRow) (t : ℤ)
    (p : BuildSettlementParams),
    getOc "trade-1" w₀.db = some r₀ ∧ r₀.order.state = .funded ∧
    (ocSystem reorgEnv).run w₀ [.tick 60, .poll, .judge reorgAnswers none] = some w ∧
    getOc "trade-1" w.db = some r ∧ r.order.Clear ∧ Entered reorgEnv "trade-1" w t ∧
    r.order.fundingDeadline = some (t + fundingWindowSec) ∧
    StoresPresig reorgEnv w₀ w₁ "trade-1" releasePsbt p ∧
    ∀ is w₂ w₃ r₂ r₃ event price, (ocSystem reorgEnv).run w₁ is = some w₂ →
      getOc "trade-1" w₂.db = some r₂ → r₂.ocMeta.presigPsbt = some releasePsbt →
      w₂.step reorgEnv (.request .cosign event price) = some w₃ →
      getOc "trade-1" w₃.db = some r₃ → r₂.order.state ≠ .settling → r₃.order.state = .settling →
      r₃.order.settlementKind = some .release →
      settlementParamsFor reorgEnv r₂.order r₂.ocMeta .release r₂.order.settlementFeeSat = some p := by
  have hrun := reorg_runs
  simp only [Option.any_eq_true, Bool.and_eq_true, decide_eq_true_eq] at hrun
  obtain ⟨w₀, hw₀, ⟨⟨r₀, hr₀, hfunded, hparams⟩, w, hw, r, hr, hbonded⟩, w₁, hs₁, r₁, hr₁, hpresigned,
    hpsbt⟩ := hrun
  obtain ⟨p, hp⟩ := Option.isSome_iff_exists.mp hparams
  have hreach : (ocSystem reorgEnv).Reachable w := (reachable_of_run hw₀).run hw
  have hstores : StoresPresig reorgEnv w₀ w₁ "trade-1" releasePsbt p :=
    ⟨⟨_, _, hs₁⟩, ⟨r₀, hr₀, hfunded, hp⟩, r₁, hr₁, hpresigned, hpsbt⟩
  obtain ⟨hclear, hdeadline, hreleases⟩ := reorg_leaves_nothing reorgEnv txidCommits_reorgLib
  obtain ⟨⟨t, ht⟩, hstamped⟩ := hdeadline w "trade-1" r hreach hr hbonded
  refine ⟨w₀, w, w₁, r₀, r, t, p, hr₀, hfunded, hw, hr, hclear w "trade-1" r hreach hr (.inr hbonded),
    ht, hstamped t ht, hstores, fun is w₂ w₃ r₂ r₃ event price hrun hr₂ hpsbt₂ hstep hr₃ => ?_⟩
  exact hreleases w₀ w₁ w₂ w₃ is "trade-1" releasePsbt p r₂ r₃ event price hstores hrun hr₂ hpsbt₂
    hstep hr₃

end LnPay
