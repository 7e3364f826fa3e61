/-
# Stale commands

A command of the operator names the version of the order it was given for, so
that of two commands for one version the second comes too late once the first has
changed the order.  A rescue is the exception: it is written into the private part
without a new version.

What is sent out is looked up in the private part when its turn comes, and is
there as long as nothing takes it back.  The one thing that does is a second
rescue of the same output.
-/
import LnPay.OcWindow

namespace LnPay

variable {P : Type}

/-! ## What the broadcast looks up -/

/-- `createBroadcastExecutor`, `rawOf`: the original that is sent out. -/
def OcMeta.rawOf (txid : String) (rescueKey : Option String) (m : OcMeta) : Option String :=
  match given rescueKey with
  | some key => (OcCtx.rescueOf key m).bind (·.rawHex)
  | none => (m.outbox.filter fun o => o.txid = txid).map (·.rawHex)

/-- The order has the original; without one the broadcast dies. -/
def OcRow.Backs (txid : String) (rescueKey : Option String) (r : OcRow) : Prop :=
  (given (r.ocMeta.rawOf txid rescueKey)).isSome

/-- Every broadcast that is pending finds its original. -/
def Backed (db : OcDb) : Prop :=
  ∀ id txid key, Broadcasting db id txid key → ∃ r, getOc id db = some r ∧ r.Backs txid key

/-! ## Finding the original -/

section Lookup

variable {m m' : OcMeta} {txid key k : String} {rescueKey : Option String} {rescue : OcRescue}

theorem rescueOf_setRescue_self :
    OcCtx.rescueOf key (OcCtx.setRescue key rescue m) = some rescue := by
  simp [OcCtx.rescueOf, OcCtx.setRescue]

theorem rescueOf_setRescue_ne (h : k ≠ key) :
    OcCtx.rescueOf k (OcCtx.setRescue key rescue m) = OcCtx.rescueOf k m := by
  have hkey : ¬ key = k := fun hk => h hk.symm
  simp only [OcCtx.rescueOf, OcCtx.setRescue, List.find?_cons, hkey, decide_false,
    List.find?_filter]
  congr 2
  funext e
  by_cases hk : e.1 = k
  · simp [hk, h]
  · simp [hk]

theorem OcMeta.rawOf_congr (h : m'.sends = m.sends) :
    m'.rawOf txid rescueKey = m.rawOf txid rescueKey := by
  obtain ⟨ho, hr⟩ := Prod.mk.inj h
  simp only [OcMeta.rawOf, OcCtx.rescueOf, ho, hr]

/-- The original of a rescue is in its entry. -/
theorem OcMeta.rawOf_rescue (h : given rescueKey = some k) :
    m.rawOf txid rescueKey = (OcCtx.rescueOf k m).bind (·.rawHex) := by
  rw [OcMeta.rawOf, h]

/-- The original of the settlement is in the outbox. -/
theorem OcMeta.rawOf_outbox (h : given rescueKey = none) :
    m.rawOf txid rescueKey = (m.outbox.filter fun o => o.txid = txid).map (·.rawHex) := by
  rw [OcMeta.rawOf, h]

/-- An entry that is put under another key takes no original away. -/
theorem OcMeta.rawOf_setRescue_ne (h : given rescueKey ≠ some key) :
    (OcCtx.setRescue key rescue m).rawOf txid rescueKey = m.rawOf txid rescueKey := by
  cases hk : given rescueKey with
  | none => rw [rawOf_outbox hk, rawOf_outbox hk, OcCtx.setRescue]
  | some k =>
    rw [rawOf_rescue hk, rawOf_rescue hk, rescueOf_setRescue_ne]
    rintro rfl
    exact h hk

end Lookup

theorem given_ne {s : String} (h : s ≠ "") : given (some s) = some s :=
  Option.filter_eq_some_iff.mpr ⟨rfl, by simpa using h⟩

/-! ## What is sent out stays there -/

/-- The states from which nothing is cosigned any more. -/
def OnchainState.past : OnchainState → Bool
  | .settling | .released | .refunded | .sponsorWins | .customerWins | .swept => true
  | .listed | .bonded | .funded | .presigned | .remitted | .disputed | .refunding
  | .cancelled => false

example : OnchainState.disputed.past = false := by decide +kernel

theorem past_legal {s t : OnchainState} (hs : s.past = true)
    (h : t = s ∨ canOnchainTransition s t = true) : t.past = true := by
  obtain rfl | h := h
  · exact hs
  · revert h hs
    cases s <;> cases t <;> decide

theorem not_past_of_canAct {kind : SettlementKind} {s : OnchainState} {k : Option SettlementKind}
    (h : canActOnSignRequest s (signPurposeFor kind) k = true) : s.past = false := by
  revert h
  cases kind <;> cases s <;> simp [signPurposeFor, canActOnSignRequest, OnchainState.past]

/-- What is in the outbox is a transaction, and the order is past cosigning. -/
def OcRow.Posted (r : OcRow) : Prop :=
  ∀ o, r.ocMeta.outbox = some o → r.order.state.past = true ∧ o.rawHex ≠ ""

/-- Only a cosignature writes the outbox. -/
theorem OcChange.posts {c : OcCause} {o o' : OnchainOrder} {m m' : OcMeta}
    (h : OcChange c o m o' m') : m'.outbox = m.outbox ∨ ∃ kind txid rawHex,
      m'.outbox = some ⟨txid, rawHex, kind⟩ ∧ o'.state = .settling ∧
        c.completes o m kind txid rawHex := by
  cases h with
  | cosign kind txid rawHex hk hs hc ht => exact .inr ⟨kind, txid, rawHex, rfl, rfl, ht⟩
  | _ => exact .inl rfl

/-- What a cosignature completes has been finished. -/
theorem Completes.finalized {env : OcEnv P} {event : OcEvent} {o : OnchainOrder} {m : OcMeta}
    {kind : SettlementKind} {txid rawHex : String} (h : Completes env event o m kind txid rawHex) :
    OcCtx.Finalized env rawHex := by
  obtain ⟨expected, signerXonly, psbt, sig, leafScript, -, -, -, -, hcomplete⟩ := h
  exact OcCtx.completeSettlement_finalized hcomplete

theorem RowStep.posted {env : OcEnv P} (hhex : ∀ tx hex, env.finalizedHex tx = .ok hex → hex ≠ "")
    {w : OcWorld} {i : OcInput} {r r' : OcRow} (h : RowStep (w.cause env i) r r') (hr : r.Posted) :
    r'.Posted := by
  intro o ho'
  cases h with
  | noted ho hm hv =>
    have hout : r'.ocMeta.outbox = r.ocMeta.outbox := OcMeta.of_record OcMeta.outbox (fun _ => rfl) hm
    rw [ho]
    exact hr o (hout.symm.trans ho')
  | changed o₁ hchange hlegal ho hv =>
    obtain hsame | ⟨kind, txid, rawHex, hout, hs, event, price, hi, hcompletes⟩ := hchange.posts
    · have hpost := hr o (hsame.symm.trans ho')
      rw [ho]
      exact ⟨past_legal hpost.1 hlegal, hpost.2⟩
    · obtain rfl := Option.some.inj (hout.symm.trans ho')
      obtain ⟨tx, htx⟩ := hcompletes.finalized
      rw [ho]
      exact ⟨congrArg OnchainState.past hs, hhex tx rawHex htx⟩

theorem posted_of_reachable {env : OcEnv P}
    (hhex : ∀ tx hex, env.finalizedHex tx = .ok hex → hex ≠ "") {w : OcWorld}
    (hw : (ocSystem env).Reachable w) {id : OrderId} {r : OcRow} (hr : getOc id w.db = some r) :
    r.Posted :=
  rows_invariant (fun r hfresh o ho => absurd (hfresh.unsent.symm.trans ho) (by simp))
    (fun _ _ _ _ hstep => hstep.posted hhex) hw hr

/-! ## What is pending stays backed -/

theorem OcRow.Backs.congr {r r' : OcRow} {txid : String} {key : Option String}
    (hr : r.Backs txid key) (h : r'.ocMeta.sends = r.ocMeta.sends) : r'.Backs txid key := by
  rw [OcRow.Backs, OcMeta.rawOf_congr h]
  exact hr

theorem Kept.backed {db db' : OcDb} (h : Kept db db') (hdb : Backed db) : Backed db' := by
  intro id txid key hb
  obtain ⟨r, hr, hback⟩ := hdb id txid key (h.queued id txid key hb)
  obtain ⟨r', hr', hs⟩ := h.rows id r hr
  exact ⟨r', hr', hback.congr hs⟩

/-- The row with its private part written. -/
def OcRow.noting (patch : OcMeta → OcMeta) (r : OcRow) : OcRow := { r with ocMeta := patch r.ocMeta }

/-- A write keeps the originals of what is pending, and those of the new broadcasts are there. -/
theorem Written.backed {db db' : OcDb} {id : OrderId} {patch : OcMeta → OcMeta}
    {new : List (String × Option String)} (h : Written db db' id patch new) (hdb : Backed db)
    (hold : ∀ r txid key, getOc id db = some r → Broadcasting db id txid key → r.Backs txid key →
      (r.noting patch).Backs txid key)
    (hnew : ∀ p ∈ new, ∃ r, getOc id db = some r ∧ (r.noting patch).Backs p.1 p.2) :
    Backed db' := by
  intro id' txid key hb
  obtain hb | ⟨rfl, hmem⟩ := h.queued id' txid key hb
  · obtain ⟨r, hr, hback⟩ := hdb id' txid key hb
    obtain ⟨r', hr', hs⟩ := h.rows id' r hr
    refine ⟨r', hr', ?_⟩
    by_cases hid : id' = id
    · subst hid
      rw [if_pos rfl] at hs
      exact (hold r txid key hr hb hback).congr hs
    · rw [if_neg hid] at hs
      exact hback.congr hs
  · obtain ⟨r, hr, hback⟩ := hnew _ hmem
    obtain ⟨r', hr', hs⟩ := h.rows id' r hr
    rw [if_pos rfl] at hs
    exact ⟨r', hr', hback.congr hs⟩

/-- The step asks for no rescue of an output whose rescue is being sent out. -/
def SparesPending (w : OcWorld) (i : OcInput) : Prop :=
  ∀ txid vout id version price, i = .command (.rescue txid vout) id version price →
    ∀ sent, ¬ Broadcasting w.db id sent (some (formatOutpoint ⟨txid, vout⟩))

/-- What is in an entry of its own is there. -/
theorem backs_setRescue {r : OcRow} {txid key raw : String} {rescueKey : Option String}
    {rescue : OcRescue} (hk : given rescueKey = some key) (hraw : rescue.rawHex = some raw)
    (hne : raw ≠ "") : (r.noting (OcCtx.setRescue key rescue)).Backs txid rescueKey := by
  rw [OcRow.Backs, OcMeta.rawOf_rescue hk, OcRow.noting, rescueOf_setRescue_self, Option.bind_some,
    hraw, given_ne hne]
  rfl

/-- What is in another entry stays there. -/
theorem OcRow.Backs.setRescue_ne {r : OcRow} {txid key : String} {rescueKey : Option String}
    {rescue : OcRescue} (hr : r.Backs txid rescueKey) (hk : given rescueKey ≠ some key) :
    (r.noting (OcCtx.setRescue key rescue)).Backs txid rescueKey := by
  rw [OcRow.Backs, OcRow.noting, OcMeta.rawOf_setRescue_ne hk]
  exact hr

/-- The outbox has the original. -/
theorem backs_outbox {r : OcRow} {o : Outbox} (ho : r.ocMeta.outbox = some o)
    (hne : o.rawHex ≠ "") : r.Backs o.txid none := by
  rw [OcRow.Backs, OcMeta.rawOf_outbox rfl, ho, Option.filter_some, if_pos (by simp), Option.map_some,
    given_ne hne]
  rfl

/-- Whatever is sent out, what is pending stays backed. -/
theorem Sends.backed {env : OcEnv P} (hhex : ∀ tx hex, env.finalizedHex tx = .ok hex → hex ≠ "")
    {w : OcWorld} {i : OcInput} {db' : OcDb} (h : Sends (w.cause env i) w.db db')
    (hposted : ∀ id r, getOc id w.db = some r → r.Posted) (hok : SparesPending w i)
    (hdb : Backed w.db) : Backed db' := by
  cases h with
  | kept h => exact h.backed hdb
  | settled r kind txid rawHex hr hs hraw h =>
    obtain ⟨-, tx, htx⟩ := hraw
    refine h.backed hdb (fun r₁ sent key hr₁ hb hback => ?_) fun p hp => ?_
    · obtain rfl := Option.some.inj (hr.symm.trans hr₁)
      cases hk : given key with
      | none =>
        -- what has been sent out before would have taken the order past cosigning
        rw [OcRow.Backs, OcMeta.rawOf_outbox hk] at hback
        cases ho : r.ocMeta.outbox with
        | none =>
          rw [ho] at hback
          cases hback
        | some o =>
          have hpast := (hposted _ r hr o ho).1
          rw [not_past_of_canAct hs] at hpast
          cases hpast
      | some k =>
        rw [OcRow.Backs, OcMeta.rawOf_rescue hk] at hback ⊢
        exact hback
    · obtain rfl := List.mem_singleton.mp hp
      refine ⟨r, hr, ?_⟩
      change OcRow.Backs (Outbox.mk txid rawHex kind).txid none _
      exact backs_outbox rfl (hhex tx rawHex htx)
  | again r o hr ho h =>
    refine h.backed hdb (fun _ _ _ _ _ hback => hback) fun p hp => ?_
    obtain rfl := List.mem_singleton.mp hp
    exact ⟨r, hr, backs_outbox ho (hposted _ r hr o ho).2⟩
  | asked id key rescue hc h =>
    obtain ⟨txid, vout, version, price, hi, rfl⟩ := hc
    refine h.backed hdb (fun r sent rescueKey _ hb hback => hback.setRescue_ne fun hk => ?_)
      fun p hp => by cases hp
    obtain rfl := (Option.filter_eq_some_iff.mp hk).1
    exact hok txid vout id version price hi sent hb
  | signed r key txid rawHex rescue hr hres hkey hraw h =>
    obtain ⟨-, tx, htx⟩ := hraw
    refine h.backed hdb (fun r₁ sent rescueKey _ hb hback => ?_) fun p hp => ?_
    · by_cases hk : given rescueKey = some key
      · exact backs_setRescue hk rfl (hhex tx rawHex htx)
      · exact hback.setRescue_ne hk
    · obtain rfl := List.mem_singleton.mp hp
      exact ⟨r, hr, backs_setRescue (given_ne hkey) rfl (hhex tx rawHex htx)⟩
  | marked r key txid rescue hr hres hm h =>
    refine h.backed hdb (fun r₁ sent rescueKey hr₁ hb hback => ?_) fun p hp => by cases hp
    obtain rfl := Option.some.inj (hr.symm.trans hr₁)
    by_cases hk : given rescueKey = some key
    · -- the mark leaves the original where it is
      rw [OcRow.Backs, OcMeta.rawOf_rescue hk] at hback ⊢
      rw [OcRow.noting, rescueOf_setRescue_self]
      rw [hres] at hback
      exact hback
    · exact hback.setRescue_ne hk

/-- Every broadcast that is pending finds its original, in every run whose rescues spare what is being
sent out. -/
theorem backed_of_reachable {env : OcEnv P}
    (hhex : ∀ tx hex, env.finalizedHex tx = .ok hex → hex ≠ "") {w : OcWorld}
    (hw : (ocSystem env).ReachableBy SparesPending w) : Backed w.db := by
  refine TransitionSystem.invariant_by (M := ocSystem env) (P := fun w => Backed w.db) ?_ ?_ hw
  · rintro _ ⟨now, rfl⟩ id txid key hb
    cases hb
  · intro w i w' hw hdb hok h
    exact (step_next h).sends.backed hhex (fun id r hr => posted_of_reachable hhex hw.reachable hr)
      hok hdb

/-! ## What a command changes -/

/-- A command for an order as it was at this version. -/
def CommandOn (id : OrderId) (version : ℕ) (i : OcInput) : Prop :=
  ∃ cmd price, i = .command cmd id version price

/-- A command that asks for a rescue. -/
def AsksRescue (i : OcInput) : Prop :=
  ∃ txid vout id version price, i = .command (.rescue txid vout) id version price

/-- The order row with what is sent out of its private part. -/
def OcRow.ledger (r : OcRow) : OnchainOrder × ℕ × Option Outbox × List (String × OcRescue) :=
  (r.order, r.version, r.ocMeta.sends)

/-- The order row has changed, or what is sent out of its private part. -/
def Touched (id : OrderId) (db db' : OcDb) : Prop :=
  (getOc id db').map OcRow.ledger ≠ (getOc id db).map OcRow.ledger

/-- A command for another version changes nothing. -/
theorem command_stale {env : OcEnv P} {w w' : OcWorld} {cmd : OcCommand} {id : OrderId}
    {version : ℕ} {price : Option ℚ} (h : w.step env (.command cmd id version price) = some w')
    (hv : ∀ r, getOc id w.db = some r → r.version ≠ version) : w'.db = w.db := by
  obtain rfl := Option.some.inj h
  cases hr : getOc id w.db with
  | none => simp only [OcCtx.ocCommand, hr]; rfl
  | some r =>
    have hne : r.version ≠ version := hv r hr
    simp only [OcCtx.ocCommand, hr, if_pos hne]
    rfl

/-- A command that changes something is for the version the order has. -/
theorem version_of_touched {env : OcEnv P} {w w' : OcWorld} {i : OcInput} {id : OrderId}
    {version : ℕ} (hi : CommandOn id version i) (h : w.step env i = some w')
    (ht : Touched id w.db w'.db) : ∃ r, getOc id w.db = some r ∧ r.version = version := by
  obtain ⟨cmd, price, rfl⟩ := hi
  by_contra hno
  refine ht ?_
  rw [command_stale h fun r hr hv => hno ⟨r, hr, hv⟩]

/-- A command that asks for no rescue leaves what is sent out as it is. -/
theorem Sends.of_command {env : OcEnv P} {w : OcWorld} {i : OcInput} {db db' : OcDb} {id : OrderId}
    {version : ℕ} (h : Sends (w.cause env i) db db') (hi : CommandOn id version i)
    (hno : ¬ AsksRescue i) {r : OcRow} (hr : getOc id db = some r) :
    ∃ r', getOc id db' = some r' ∧ r'.ocMeta.sends = r.ocMeta.sends := by
  obtain ⟨cmd, price, rfl⟩ := hi
  cases h with
  | kept h => exact h.rows id r hr
  | settled _ _ _ _ _ _ hraw =>
    obtain ⟨⟨_, _, hcosign⟩, -⟩ := hraw
    cases hcosign
  | again r₁ o _ _ h =>
    obtain ⟨r', hr', hs⟩ := h.rows id r hr
    refine ⟨r', hr', hs.trans ?_⟩
    split <;> rfl
  | asked id' key rescue hc =>
    obtain ⟨txid, vout, version', price', hrescue, -⟩ := hc
    exact absurd ⟨txid, vout, id', version', price', hrescue⟩ hno
  | signed _ _ _ _ _ _ _ _ hraw =>
    obtain ⟨⟨_, _, hcosign⟩, -⟩ := hraw
    cases hcosign
  | marked _ _ _ _ _ _ hm =>
    obtain ⟨_, _, _, hmark⟩ := hm
    cases hmark

/-- A command that asks for no rescue makes a new version of what it changes. -/
theorem version_of_command {env : OcEnv P} {w w' : OcWorld} {i : OcInput} {id : OrderId}
    {version : ℕ} (hi : CommandOn id version i) (hno : ¬ AsksRescue i)
    (h : w.step env i = some w') (ht : Touched id w.db w'.db) :
    ∃ r', getOc id w'.db = some r' ∧ version < r'.version := by
  obtain ⟨r, hr, rfl⟩ := version_of_touched hi h ht
  have hnext := step_next h
  obtain ⟨r', hr', hstep⟩ := hnext.row hr
  obtain ⟨r₁, hr₁, hs⟩ := hnext.sends.of_command hi hno hr
  obtain rfl := Option.some.inj (hr'.symm.trans hr₁)
  refine ⟨r', hr', ?_⟩
  cases hstep with
  | noted ho hm hv =>
    refine absurd ?_ ht
    rw [hr, hr', Option.map_some, Option.map_some, OcRow.ledger, OcRow.ledger, ho, hv, hs]
  | changed o' hchange hlegal ho hv => omega

/-- Versions only grow. -/
theorem version_of_run {env : OcEnv P} {w w' : OcWorld} {is : List OcInput}
    (h : (ocSystem env).run w is = some w') {id : OrderId} {r : OcRow} (hr : getOc id w.db = some r) :
    ∃ r', getOc id w'.db = some r' ∧ r.version ≤ r'.version := by
  induction is generalizing w r with
  | nil =>
    obtain rfl := Option.some.inj h
    exact ⟨r, hr, le_rfl⟩
  | cons i is ih =>
    obtain ⟨w₁, hstep, hrun⟩ := Option.bind_eq_some_iff.mp h
    obtain ⟨r₁, hr₁, hrow⟩ := (step_next hstep).row hr
    obtain ⟨r', hr', hle⟩ := ih hrun hr₁
    refine ⟨r', hr', le_trans ?_ hle⟩
    cases hrow with
    | noted ho hm hv => exact hv.ge
    | changed o' hchange hlegal ho hv => omega

/-- **Stale commands are harmless as long as no rescue is asked for twice.**  Of two commands for one
version the second changes nothing where the first has changed something and asks for no rescue, with
whatever steps between them; and every pending broadcast finds its original, in every run whose
rescues spare what is being sent out. -/
theorem stale_commands_harmless (env : OcEnv P)
    (hhex : ∀ tx hex, env.finalizedHex tx = .ok hex → hex ≠ "") :
    (∀ (w w₁ w₂ w₃ : OcWorld) (is : List OcInput) (i j : OcInput) (id : OrderId) (version : ℕ),
      (ocSystem env).Reachable w → CommandOn id version i → CommandOn id version j →
      ¬ AsksRescue i → (ocSystem env).step w i = some w₁ → (ocSystem env).run w₁ is = some w₂ →
      (ocSystem env).step w₂ j = some w₃ → ¬ (Touched id w.db w₁.db ∧ Touched id w₂.db w₃.db)) ∧
    ∀ w, (ocSystem env).ReachableBy SparesPending w → Backed w.db := by
  refine ⟨?_, fun w hw => backed_of_reachable hhex hw⟩
  rintro w w₁ w₂ w₃ is i j id version - hi hj hno hstep hrun hstep' ⟨ht, ht'⟩
  obtain ⟨r₁, hr₁, hlt⟩ := version_of_command hi hno hstep ht
  obtain ⟨r₂, hr₂, hle⟩ := version_of_run hrun hr₁
  obtain ⟨r, hr, rfl⟩ := version_of_touched hj hstep' ht'
  obtain rfl := Option.some.inj (hr₂.symm.trans hr)
  omega

/-! ### A rescue that is asked for twice -/

/-- The PSBT of the rescue with the signature of the customer. -/
def rescuePsbt : String :=
  "cHNidP8BAF4CAAAAAaurq6urq6urq6urq6urq6urq6urq6urq6urq6urq6urAQAAAAD/////AfOYAAAA" ++
    "AAAAIlEgMRTuBgFcKO/HC4Z7aqPSqq+t830HwaEIc9AzAfQfALwAAAAAAAEBK0CcAAAAAAAAIlEgJHXe" ++
    "F8IjvmNwsEGfvbv8Fi6OWauH5DuS9vplQjwzNNhBFHdK5/hYqUEeXvQka3DGWqxWSZgL5cF4kbvsF4ld" ++
    "oAjLfcT5ld1kruPEtfAey94xC4kGGxaj0lfC5i58AMfQa/xA2UkQH/jRFkDDQNF6On/fYv5qNHQUMgj9" ++
    "TfIMMtiwzL30RlmEXX5YIPszu31UrShJ94LiTExF5WMet4cTovwXRAAA"

/-- The leaf of a refund: the customer and the admin sign. -/
def rescueLeaf : Bytes :=
  bytesOf ("201697ffa6fd9de627c077e3d2fe541084ce13300b0bec1146f95ae57f0d0bd6a5ad20774ae7f858" ++
    "a9411e5ef4246b70c65aac5649980be5c17891bbec17895da008cbac")

/-- Its hash. -/
def rescueLeafHash : Bytes :=
  bytesOf "7dc4f995dd64aee3c4b5f01ecbde310b89061b16a3d257c2e62e7c00c7d06bfc"

/-- The signature of the customer. -/
def rescueSig : Bytes :=
  bytesOf ("d949101ff8d11640c340d17a3a7fdf62fe6a3474143208fd4df20c32d8b0ccbdf44659845d7e5820" ++
    "fb33bb7d54ad2849f782e24c4c45e5631eb78713a2fc1744")

/-- The signature of the admin. -/
def rescueAdminSig : Bytes :=
  bytesOf ("992d1fc8fe91df07b41afd86270d85ab7b6170b9117f9851bfca0a6a4e02f495e41ec4fe42440032" ++
    "c8f1a007dbfe8de319890283e7f7be4c1a4626f1400ec545")

/-- The digest that is signed. -/
def rescueSighash : Bytes :=
  bytesOf "8a4003d600cefcaf17f950acc7830a91d99574ff519a85313408f4c079576e02"

theorem rescueLeaf_eq : rescueLeaf = twoSigBytes adminBytes customerBytes :=
  (bytesOf_append _ _).trans (by decide +kernel)

theorem rescueLeafHash_eq :
    rescueLeafHash = beBytes 32 0x7dc4f995dd64aee3c4b5f01ecbde310b89061b16a3d257c2e62e7c00c7d06bfc :=
  (bytesOf_ofList _).trans (by decide +kernel)

theorem rescueSig_eq : rescueSig =
    beBytes 40 0xd949101ff8d11640c340d17a3a7fdf62fe6a3474143208fd4df20c32d8b0ccbdf44659845d7e5820 ++
      beBytes 24 0xfb33bb7d54ad2849f782e24c4c45e5631eb78713a2fc1744 :=
  (bytesOf_append _ _).trans (by decide +kernel)

theorem rescueAdminSig_eq : rescueAdminSig =
    beBytes 40 0x992d1fc8fe91df07b41afd86270d85ab7b6170b9117f9851bfca0a6a4e02f495e41ec4fe42440032 ++
      beBytes 24 0xc8f1a007dbfe8de319890283e7f7be4c1a4626f1400ec545 :=
  (bytesOf_append _ _).trans (by decide +kernel)

theorem rescueSighash_eq :
    rescueSighash = beBytes 32 0x8a4003d600cefcaf17f950acc7830a91d99574ff519a85313408f4c079576e02 :=
  (bytesOf_ofList _).trans (by decide +kernel)

/-- The transaction of the rescue. -/
def rescueTxid : String := "b498d0bce9abdd4dc322bb17d251072ea755a007a0554da501dcb8448a5fc9b8"

/-- The transaction with both signatures. -/
def rescueHex : String :=
  "02000000000101abababababababababababababababababababababababababababababababab01" ++
    "00000000ffffffff01f3980000000000002251203114ee06015c28efc70b867b6aa3d2aaafadf37d" ++
    "07c1a10873d03301f41f00bc0440d949101ff8d11640c340d17a3a7fdf62fe6a3474143208fd4df2" ++
    "0c32d8b0ccbdf44659845d7e5820fb33bb7d54ad2849f782e24c4c45e5631eb78713a2fc17444099" ++
    "2d1fc8fe91df07b41afd86270d85ab7b6170b9117f9851bfca0a6a4e02f495e41ec4fe42440032c8" ++
    "f1a007dbfe8de319890283e7f7be4c1a4626f1400ec54544201697ffa6fd9de627c077e3d2fe5410" ++
    "84ce13300b0bec1146f95ae57f0d0bd6a5ad20774ae7f858a9411e5ef4246b70c65aac5649980be5" ++
    "c17891bbec17895da008cbac61c050929b74c1a04954b78b4b6035e97a5e078a5a0f28ec96d547bf" ++
    "ee9ace803ac0bdf845010e8d4a2938d325993b39b9229f5fe686ba31df4839a78a1025dd3f5fc0c4" ++
    "513d27fa45a53cb299098f11849cb50565ff3193350c1ac97ce87d90305100000000"

/-- The transaction in the PSBT. -/
def rescueTx : BtcTransaction where
  version := 2
  lockTime := 0
  inputs := [{
    txid := some tradeTxid
    index := some 1
    sequence := sequenceFinal
    witnessUtxo := some (samplePayment.script, 40000)
    tapLeafScript := []
    tapInternalKey := none
    tapMerkleRoot := none
    tapScriptSig := [((refundKeys.customer, rescueLeafHash), rescueSig)] }]
  outputs := [⟨some sampleSingle.script, some 39155⟩]

/-- The library on the rescue. -/
def rescueLib : BtcSigner String :=
  { tradeLib with
    fromPsbtBase64 := fun psbt =>
      if psbt = rescuePsbt then .ok rescueTx else tradeLib.fromPsbtBase64 psbt
    txid := fun tx => if tx.outputs = rescueTx.outputs then .ok rescueTxid else tradeLib.txid tx
    tapLeafHash := fun script =>
      if script = rescueLeaf then rescueLeafHash else tradeLib.tapLeafHash script
    sighash := fun tx script valueSat leaf =>
      if tx.outputs = rescueTx.outputs ∧ leaf = rescueLeaf then .ok rescueSighash
      else tradeLib.sighash tx script valueSat leaf
    schnorrVerify := fun sig msg key => .ok (sig = rescueSig ∧ msg = rescueSighash ∧
      key = bytesOf refundKeys.customer)
    signIdx := fun privkey tx =>
      if tx.outputs = rescueTx.outputs then
        .ok [((refundKeys.admin, rescueLeafHash), rescueAdminSig)]
      else tradeLib.signIdx privkey tx }

/-- The daemon of the trade. -/
def rescueEnv : OcEnv String :=
  { tradeEnv with
    lib := rescueLib
    finalizedHex := fun tx => if tx.outputs = rescueTx.outputs then .ok rescueHex
      else .error "Not enough signatures" }

/-- A sale that is claimed; then the funding comes with the wrong amount. -/
def strayInputs : List OcInput :=
  tradeInputs.take 3 ++
    [.poll, .judge { tradeAnswers with utxos := .known [⟨tradeTxid, 1, 40000, some 100⟩] } none]

/-- The operator asks for the rescue of the funding. -/
def askRescue : OcInput := .command (.rescue tradeTxid 1) "trade-1" 2 none

/-- The customer signs the rescue; then the operator's other screen, as it was, asks again. -/
def signRescue : List OcInput :=
  [.request .cosign ⟨"e6", refundKeys.customer, refundKeys_customer, 0,
    [["a", "38383:daemon:trade-1"], ["purpose", "rescue"]],
    .payload ⟨none, none, none, some rescuePsbt, none⟩⟩ none, .tick 10]

/-- What is read from a row that is the same reads the same. -/
theorem touched_of {α : Type} {id : OrderId} {db db' : OcDb} (f : OcRow → α)
    (hf : ∀ r r' : OcRow, r'.ledger = r.ledger → f r' = f r)
    (h : (getOc id db').map f ≠ (getOc id db).map f) : Touched id db db' := by
  intro hsame
  refine h ?_
  cases hr : getOc id db with
  | none =>
    rw [hr, Option.map_none] at hsame
    rw [Option.map_eq_none_iff.mp hsame]
  | some r =>
    rw [hr, Option.map_some] at hsame
    obtain ⟨r', hr', hledger⟩ := Option.map_eq_some_iff.mp hsame
    rw [hr', Option.map_some, Option.map_some, hf r r' hledger]

/-- The rescue is asked for when nothing is being sent out; it is signed and sent out, and asked for
again. -/
theorem rescue_run : ((ocSystem rescueEnv).run (OcWorld.init 0) strayInputs).any (fun w =>
    (w.step rescueEnv askRescue).any fun w₁ => ((ocSystem rescueEnv).run w₁ signRescue).any fun w₂ =>
      (w₂.step rescueEnv askRescue).any fun w₃ => decide (w.db.effects.length = 0 ∧
        Effect.own (.broadcast "trade-1" rescueTxid (some (formatOutpoint ⟨tradeTxid, 1⟩))) ∈
          w₂.db.effects ∧
        Effect.own (.broadcast "trade-1" rescueTxid (some (formatOutpoint ⟨tradeTxid, 1⟩))) ∈
          w₃.db.effects ∧
        (getOc "trade-1" w₁.db).map (·.ocMeta.rescues) ≠
          (getOc "trade-1" w.db).map (·.ocMeta.rescues) ∧
        (getOc "trade-1" w₃.db).map (·.ocMeta.rescues) ≠
          (getOc "trade-1" w₂.db).map (·.ocMeta.rescues) ∧
        (getOc "trade-1" w₃.db).map (fun r => r.ocMeta.rawOf rescueTxid
          (some (formatOutpoint ⟨tradeTxid, 1⟩))) = some none)) = true := by
  unfold rescueEnv rescueLib rescueTx tradeEnv tradeLib sampleLib
  rw [samplePayment_eq, sampleSingle_eq, rescueLeaf_eq, rescueLeafHash_eq, rescueSig_eq,
    rescueAdminSig_eq, rescueSighash_eq]
  decide +kernel

/-- The two commands name one version, both change what is sent out, and the broadcast of the rescue
has lost its original. -/
theorem rescue_asked_twice : ∃ w w₁ w₂ w₃ : OcWorld, (ocSystem rescueEnv).Reachable w ∧
    CommandOn "trade-1" 2 askRescue ∧ (ocSystem rescueEnv).step w askRescue = some w₁ ∧
    (ocSystem rescueEnv).run w₁ signRescue = some w₂ ∧
    (ocSystem rescueEnv).step w₂ askRescue = some w₃ ∧
    Touched "trade-1" w.db w₁.db ∧ Touched "trade-1" w₂.db w₃.db ∧ ¬ Backed w₃.db := by
  have hrun := rescue_run
  simp only [Option.any_eq_true, decide_eq_true_eq] at hrun
  obtain ⟨w, hw, w₁, hs₁, w₂, hrun₂, w₃, hs₃, -, -, hpending, hne₁, hne₃, hraw⟩ := hrun
  refine ⟨w, w₁, w₂, w₃, reachable_of_run hw, ⟨_, _, rfl⟩, hs₁, hrun₂, hs₃,
    touched_of _ (fun _ _ h => congrArg (·.2.2.2) h) hne₁,
    touched_of _ (fun _ _ h => congrArg (·.2.2.2) h) hne₃, fun hbacked => ?_⟩
  obtain ⟨r, hr, hback⟩ := hbacked _ _ _ hpending
  obtain ⟨r', hr', hnone⟩ := Option.map_eq_some_iff.mp hraw
  obtain rfl := Option.some.inj (hr.symm.trans hr')
  rw [OcRow.Backs, hnone] at hback
  cases hback

/-! ### Two rulings, and one rescue -/

/-- The trade goes on until the customer disputes that the money has come. -/
def disputedInputs : List OcInput :=
  tradeInputs ++ [.tick 100, tradePresig 100, tradeAccount 100,
    .request .remitRequest ⟨"e5", refundKeys.sponsor, refundKeys_sponsor, 100,
      [["a", "38383:daemon:trade-1"]], .undecryptable⟩ none,
    .request .dispute ⟨"e6", refundKeys.customer, refundKeys_customer, 100,
      [["a", "38383:daemon:trade-1"]], .undecryptable⟩ none]

/-- The operator rules on the dispute. -/
def ruling (sponsorWins : Bool) : OcInput := .command (.rule sponsorWins) "trade-1" 7 none

theorem commandOn_ruling (b : Bool) : CommandOn "trade-1" 7 (ruling b) := ⟨_, _, rfl⟩

theorem not_asksRescue_ruling (b : Bool) : ¬ AsksRescue (ruling b) := by
  rintro ⟨txid, vout, id, version, price, h⟩
  cases h

theorem sparesPending_of {w : OcWorld} {i : OcInput} (h : ¬ AsksRescue i) : SparesPending w i :=
  fun txid vout id version price hi => absurd ⟨txid, vout, id, version, price, hi⟩ h

theorem not_asksRescue_of_stray : ∀ i ∈ strayInputs, ¬ AsksRescue i := by
  rintro i hi ⟨txid, vout, id, version, price, rfl⟩
  simp [strayInputs, tradeInputs] at hi

theorem not_asksRescue_of_sign : ∀ i ∈ signRescue, ¬ AsksRescue i := by
  rintro i hi ⟨txid, vout, id, version, price, rfl⟩
  simp [signRescue] at hi

theorem releaseHex_ne (tx : BtcTransaction) (hex : String)
    (h : releaseEnv.finalizedHex tx = .ok hex) : hex ≠ "" := by
  cases h

theorem rescueHex_ne (tx : BtcTransaction) (hex : String) (h : rescueEnv.finalizedHex tx = .ok hex) :
    hex ≠ "" := by
  dsimp only [rescueEnv] at h
  split at h
  · obtain rfl := Except.ok.inj h
    decide
  · cases h

/-- The ruling makes a new version. -/
theorem ruling_run : ((ocSystem releaseEnv).run (OcWorld.init 0) disputedInputs).any (fun w =>
    (w.step releaseEnv (ruling true)).any fun w₁ => decide (
      (getOc "trade-1" w₁.db).map (·.version) ≠ (getOc "trade-1" w.db).map (·.version))) = true := by
  unfold releaseEnv releaseLib releaseTx tradeEnv tradeLib sampleLib
  rw [samplePayment_eq, sampleSingle_eq, releaseLeaf_eq, releaseLeafHash_eq, releaseSig_eq,
    releaseSighash_eq]
  decide +kernel

/-- A ruling the other way for the same version, and after it, changes nothing; a rescue that is asked
for once is sent out with its original. -/
theorem stale_commands_harmless_sale :
    (∃ w w₁ w₂ w₃, (ocSystem releaseEnv).Reachable w ∧
      (ocSystem releaseEnv).step w (ruling true) = some w₁ ∧ Touched "trade-1" w.db w₁.db ∧
      (ocSystem releaseEnv).run w₁ [.tick 10] = some w₂ ∧
      (ocSystem releaseEnv).step w₂ (ruling false) = some w₃ ∧ ¬ Touched "trade-1" w₂.db w₃.db) ∧
    ∃ w, (ocSystem rescueEnv).ReachableBy SparesPending w ∧
      Broadcasting w.db "trade-1" rescueTxid (some (formatOutpoint ⟨tradeTxid, 1⟩)) ∧ Backed w.db := by
  constructor
  · have hrun := ruling_run
    simp only [Option.any_eq_true, decide_eq_true_eq] at hrun
    obtain ⟨w, hw, w₁, hs₁, hne⟩ := hrun
    have ht : Touched "trade-1" w.db w₁.db := touched_of _ (fun _ _ h => congrArg (·.2.1) h) hne
    have hreach := reachable_of_run hw
    obtain ⟨w₂, hrun₂⟩ : ∃ w₂, (ocSystem releaseEnv).run w₁ [.tick 10] = some w₂ := ⟨_, rfl⟩
    obtain ⟨w₃, hs₃⟩ : ∃ w₃, (ocSystem releaseEnv).step w₂ (ruling false) = some w₃ := ⟨_, rfl⟩
    refine ⟨w, w₁, w₂, w₃, hreach, hs₁, ht, hrun₂, hs₃, fun ht' => ?_⟩
    exact (stale_commands_harmless releaseEnv releaseHex_ne).1 w w₁ w₂ w₃ [.tick 10]
      (ruling true) (ruling false) "trade-1" 7 hreach (commandOn_ruling true) (commandOn_ruling false)
      (not_asksRescue_ruling true) hs₁ hrun₂ hs₃ ⟨ht, ht'⟩
  · have hrun := rescue_run
    simp only [Option.any_eq_true, decide_eq_true_eq] at hrun
    obtain ⟨w, hw, w₁, hs₁, w₂, hrun₂, w₃, -, hidle, hpending, -⟩ := hrun
    have hreach : (ocSystem rescueEnv).ReachableBy SparesPending w :=
      .run (.init ⟨0, rfl⟩) (fun i hi _ => sparesPending_of (not_asksRescue_of_stray i hi)) hw
    have hspares : SparesPending w askRescue := by
      intro txid vout id version price _ sent hb
      rw [Broadcasting, List.length_eq_zero_iff.mp hidle] at hb
      cases hb
    have hreach₂ : (ocSystem rescueEnv).ReachableBy SparesPending w₂ :=
      .run (.step hreach hspares hs₁)
        (fun i hi _ => sparesPending_of (not_asksRescue_of_sign i hi)) hrun₂
    exact ⟨w₂, hreach₂, hpending, (stale_commands_harmless rescueEnv rescueHex_ne).2 w₂ hreach₂⟩

end LnPay
