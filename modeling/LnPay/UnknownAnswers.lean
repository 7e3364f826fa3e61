/-
# Unknown is not absent (`shared/src/onchain/chain.ts`)

The explorer's answers against what the queries make of them.  `TipRead`,
`FundsSaid`, `TxSaid` and `SpendSaid` state what a response has to say before a
query may answer, and whatever the outcomes of the requests are, a query that
answers has been told so:

* an entry with a block is in the confirmed list at the depth of that block;
* `seen: false` is an explicit "transaction not found";
* `none`, `pending`, `gone` and `shallow` are read off a response that says so.

An entry that is `confirmed` without a height goes with the mempool.
-/
import Mathlib.Data.List.Infix
import LnPay.Explorer

namespace LnPay

namespace Explorer

/-! ## What a response says -/

/-- The tip is read: its body counts as a positive integer. -/
def TipRead (js : Language) (net : Net) (tip : ℕ) : Prop :=
  ∃ value, request js net "/blocks/tip/height" = .known value ∧
    js.number value = .ok (some (.finite tip)) ∧ 0 < tip

/-- The entry `u` of the list is about the output `x`. -/
def Names (u : Json) (x : Utxo) : Prop :=
  u.field "txid" = some (.str x.txid) ∧ u.field "vout" = some (.num x.vout) ∧
    u.field "value" = some (.num x.valueSat)

/-- The status says whether it is confirmed. -/
def SaysConfirmed (value : Json) (b : Bool) : Prop :=
  value.field₂ "status" "confirmed" = some (.bool b)

/-- The status says that it is confirmed, and in which block. -/
def SaysBlock (value : Json) (height : Num) : Prop :=
  SaysConfirmed value true ∧ value.field₂ "status" "block_height" = some (.num height)

theorem blockOf_eq_some {u : Json} {height : Num} :
    blockOf u = some height ↔ SaysBlock u height := by
  simp [blockOf, SaysBlock, SaysConfirmed]

theorem blockOf_eq_none {u : Json} : blockOf u = none ↔ ∀ height, ¬ SaysBlock u height := by
  simp only [← blockOf_eq_some]
  exact Option.eq_none_iff_forall_ne_some

/-- What the list and the tip say about the funds of an address. -/
structure FundsSaid (us : List Json) (tip : ℕ) (funds : Funds) : Prop where
  /-- Every entry is well formed. -/
  typed : ∀ u ∈ us, ∃ x, Names u x
  /-- The confirmed list is that of the entries with a block, each at its depth. -/
  confirmed : List.Forall₂
    (fun u x => Names u x ∧ ∃ height, SaysBlock u height ∧ x.confirmations = depth tip height)
    (us.filter fun u => (blockOf u).isSome) funds.confirmed
  /-- Nothing with a block is in the mempool. -/
  mempool : ∀ x ∈ funds.mempool,
    x.confirmations = .finite 0 ∧ ∃ u ∈ us, Names u x ∧ ∀ height, ¬ SaysBlock u height
  /-- What is said to be unconfirmed, or confirmed without a height, is there. -/
  unplaced : ∀ u ∈ us, ∀ b, SaysConfirmed u b → (∀ height, ¬ SaysBlock u height) →
    ∃ x ∈ funds.mempool, Names u x

/-- What the responses say about a transaction. -/
inductive TxSaid (js : Language) (net : Net) (txid : String) : Status → Prop
  | notFound (reason body : String)
      (hres : request js net s!"/tx/{txid}" = .unknown reason (some 404) (some body))
      (hbody : "transaction not found".toList <:+: body.toLower.toList) :
      TxSaid js net txid ⟨false, false, .finite 0, none⟩
  | unconfirmed (tx : Json) (tip : ℕ) (hres : request js net s!"/tx/{txid}" = .known tx)
      (htip : TipRead js net tip) (hsaid : SaysConfirmed tx false) :
      TxSaid js net txid ⟨true, false, .finite 0, none⟩
  | confirmed (tx : Json) (tip : ℕ) (height : Num)
      (hres : request js net s!"/tx/{txid}" = .known tx)
      (htip : TipRead js net tip) (hsaid : SaysBlock tx height) :
      TxSaid js net txid ⟨true, true, depth tip height, some height⟩

/-- What the responses say about the spending of an output. -/
inductive SpendSaid (js : Language) (net : Net) (o : Outpoint) : Spend → Prop
  | unspent (res : Json) (hres : request js net s!"/tx/{o.txid}/outspend/{o.vout}" = .known res)
      (hsaid : res.field "spent" = some (.bool false)) : SpendSaid js net o .unspent
  | spent (res : Json) (txid : String) (confirmed : Bool) (witness : Option (List Json))
      (hres : request js net s!"/tx/{o.txid}/outspend/{o.vout}" = .known res)
      (hsaid : res.field "spent" = some (.bool true))
      (htxid : res.field "txid" = some (.str txid)) (hhex : isHex64 txid)
      (hconfirmed : confirmed = true → SaysConfirmed res true)
      (hstatus : ∀ b, SaysConfirmed res b → confirmed = b) :
      SpendSaid js net o (.spent txid confirmed witness)

/-! ## The queries -/

theorem asHeight_eq_some {n : Option Num} {height : ℕ} (h : asHeight n = some height) :
    n = some (.finite height) ∧ 0 < height := by
  rcases n with _ | _ | q | _ <;> simp only [asHeight, reduceCtorEq] at h
  split at h
  · rename_i hq
    have hnum : 0 < q.num := Rat.num_pos.mpr hq.2
    have hcast : ((q.num.toNat : ℕ) : ℤ) = q.num := Int.toNat_of_nonneg hnum.le
    obtain rfl : q.num.toNat = height := by simpa using h
    refine ⟨?_, by omega⟩
    have hq' : ((q.num.toNat : ℕ) : ℚ) = q := by
      rw [← Int.cast_natCast, hcast]
      exact Rat.coe_int_num_of_den_eq_one hq.1
    rw [hq']
  · simp at h

/-- `getTipHeight` answers with a tip that is read. -/
theorem getTipHeight_known {js : Language} {net : Net} {tip : ℕ}
    (h : getTipHeight js net = .ok (.known tip)) : TipRead js net tip := by
  unfold getTipHeight at h
  cases hreq : request js net "/blocks/tip/height" with
  | unknown reason httpStatus body => simp [hreq] at h
  | known value =>
    cases hnum : js.number value with
    | error e => simp [hreq, hnum, bind, Except.bind] at h
    | ok n =>
      cases hheight : asHeight n with
      | none =>
        cases htext : js.text value <;>
          simp [hreq, hnum, hheight, htext, bind, Except.bind, pure, Except.pure] at h
      | some height =>
        obtain rfl : height = tip := by
          simpa [hreq, hnum, hheight, bind, Except.bind, pure, Except.pure] using h
        obtain ⟨rfl, hpos⟩ := asHeight_eq_some hheight
        exact ⟨value, hreq, hnum, hpos⟩

/-- One round of the loop reads a well-formed entry, and puts it where its block says. -/
theorem readUtxo_eq_some {tip : ℕ} {u : Json} {isConfirmed : Bool} {x : Utxo}
    (h : readUtxo tip u = some (isConfirmed, x)) : Names u x ∧
      (isConfirmed = true ∧ (∃ height, SaysBlock u height ∧ x.confirmations = depth tip height) ∨
        isConfirmed = false ∧ blockOf u = none ∧ x.confirmations = .finite 0) := by
  simp only [readUtxo, Option.bind_eq_bind, Option.bind_eq_some_iff, asString_eq_some,
    asNumber_eq_some] at h
  obtain ⟨txid, htxid, vout, hvout, value, hvalue, h⟩ := h
  cases hblock : blockOf u with
  | some height =>
    simp only [hblock, pure, Option.some.injEq, Prod.mk.injEq] at h
    obtain ⟨rfl, rfl⟩ := h
    exact ⟨⟨htxid, hvout, hvalue⟩, .inl ⟨rfl, height, blockOf_eq_some.mp hblock, rfl⟩⟩
  | none =>
    simp only [hblock, pure, Option.some.injEq, Prod.mk.injEq] at h
    obtain ⟨rfl, rfl⟩ := h
    exact ⟨⟨htxid, hvout, hvalue⟩, .inr ⟨rfl, rfl, rfl⟩⟩

/-- The loop over the list sorts the entries by what they say. -/
theorem readUtxos_said {tip : ℕ} {us : List Json} {funds : Funds}
    (h : readUtxos tip us = some funds) : FundsSaid us tip funds := by
  induction us generalizing funds with
  | nil =>
    simp only [readUtxos, Option.some.injEq] at h
    subst h
    exact ⟨by simp, by simp, by simp, by simp⟩
  | cons u us ih =>
    simp only [readUtxos, Option.bind_eq_bind, Option.bind_eq_some_iff] at h
    obtain ⟨⟨isConfirmed, x⟩, hx, rest, hrest, h⟩ := h
    have hsaid := ih hrest
    have hmem : ∀ y ∈ rest.mempool, y.confirmations = .finite 0 ∧
        ∃ v ∈ u :: us, Names v y ∧ ∀ height, ¬ SaysBlock v height := by
      intro y hy
      obtain ⟨hzero, v, hv, hnames⟩ := hsaid.mempool y hy
      exact ⟨hzero, v, List.mem_cons_of_mem _ hv, hnames⟩
    obtain ⟨hnames, hplace⟩ := readUtxo_eq_some hx
    rcases hplace with ⟨rfl, height, hblock, hdepth⟩ | ⟨rfl, hblock, hzero⟩
    · simp only [if_true, pure, Option.some.injEq] at h
      subst h
      have hsome : (blockOf u).isSome = true := by simp [blockOf_eq_some.mpr hblock]
      refine ⟨?_, ?_, hmem, ?_⟩
      · exact List.forall_mem_cons.mpr ⟨⟨x, hnames⟩, hsaid.typed⟩
      · rw [List.filter_cons_of_pos (by simpa using hsome)]
        exact .cons ⟨hnames, height, hblock, hdepth⟩ hsaid.confirmed
      · intro v hv b hb hno
        rcases List.mem_cons.mp hv with rfl | hv
        · exact absurd hblock (hno height)
        · exact hsaid.unplaced v hv b hb hno
    · simp only [Bool.false_eq_true, if_false, pure, Option.some.injEq] at h
      subst h
      refine ⟨?_, ?_, ?_, ?_⟩
      · exact List.forall_mem_cons.mpr ⟨⟨x, hnames⟩, hsaid.typed⟩
      · rw [List.filter_cons_of_neg (by simp [hblock])]
        exact hsaid.confirmed
      · refine List.forall_mem_cons.mpr ⟨⟨hzero, u, List.mem_cons_self, hnames, ?_⟩, hmem⟩
        exact blockOf_eq_none.mp hblock
      · intro v hv b hb hno
        rcases List.mem_cons.mp hv with rfl | hv
        · exact ⟨x, List.mem_cons_self, hnames⟩
        · obtain ⟨y, hy, hvy⟩ := hsaid.unplaced v hv b hb hno
          exact ⟨y, List.mem_cons_of_mem _ hy, hvy⟩

/-- `getAddressFunds` answers when the list and the tip have come and every entry was read. -/
theorem getAddressFunds_read {js : Language} {net : Net} {address : String} {funds : Funds}
    (h : getAddressFunds js net address = .ok (.known funds)) :
    ∃ us tip, request js net s!"/address/{address}/utxo" = .known (.arr us) ∧
      TipRead js net tip ∧ readUtxos tip us = some funds := by
  unfold getAddressFunds at h
  cases htip : getTipHeight js net with
  | error e => simp [htip, bind, Except.bind] at h
  | ok tipRes =>
    simp only [htip, bind, Except.bind] at h
    cases hreq : request js net s!"/address/{address}/utxo" with
    | unknown reason httpStatus body => simp [hreq, pure, Except.pure] at h
    | known value =>
      cases tipRes with
      | unknown reason => simp [hreq, pure, Except.pure] at h
      | known tip =>
        cases value with
        | arr us =>
          cases hus : readUtxos tip us with
          | none => simp [hreq, hus, pure, Except.pure] at h
          | some read =>
            obtain rfl : read = funds := by simpa [hreq, hus, pure, Except.pure] using h
            exact ⟨us, tip, rfl, getTipHeight_known htip, hus⟩
        | null | bool _ | num _ | str _ | obj _ => simp [hreq, pure, Except.pure] at h

/-- The answer of `getAddressFunds` is what the list and the tip have said. -/
theorem getAddressFunds_known {js : Language} {net : Net} {address : String} {funds : Funds}
    (h : getAddressFunds js net address = .ok (.known funds)) :
    ∃ us tip, request js net s!"/address/{address}/utxo" = .known (.arr us) ∧
      TipRead js net tip ∧ FundsSaid us tip funds := by
  obtain ⟨us, tip, hreq, htip, hread⟩ := getAddressFunds_read h
  exact ⟨us, tip, hreq, htip, readUtxos_said hread⟩

/-- A list or a tip that did not come leaves the funds unknown. -/
theorem getAddressFunds_unknown {js : Language} {net : Net} {address : String} {tip : Query ℕ}
    (htip : getTipHeight js net = .ok tip)
    (hfail : (∃ reason httpStatus body,
        request js net s!"/address/{address}/utxo" = .unknown reason httpStatus body) ∨
      ∃ reason, tip = .unknown reason) :
    ∃ reason, getAddressFunds js net address = .ok (.unknown reason) := by
  simp only [getAddressFunds, htip, bind, Except.bind, pure, Except.pure]
  cases hreq : request js net s!"/address/{address}/utxo" with
  | unknown reason httpStatus body => exact ⟨reason, rfl⟩
  | known value =>
    rcases hfail with ⟨reason, httpStatus, body, hres⟩ | ⟨reason, rfl⟩
    · simp [hreq] at hres
    · exact ⟨reason, rfl⟩

theorem saysNotFound_eq_true {httpStatus : Option ℕ} {body : Option String}
    (h : saysNotFound httpStatus body = true) : httpStatus = some 404 ∧
      "transaction not found".toList <:+: (body.getD "").toLower.toList := by
  unfold saysNotFound at h
  obtain ⟨hstatus, hbody⟩ := (Bool.and_eq_true _ _).mp h
  obtain ⟨rest, hrest, hprefix⟩ := List.any_eq_true.mp hbody
  refine ⟨of_decide_eq_true hstatus, ?_⟩
  exact (List.isPrefixOf_iff_prefix.mp hprefix).isInfix.trans
    ((List.mem_tails _ _).mp hrest).isInfix

theorem request_unknown_body {js : Language} {net : Net} {path reason : String} {status : ℕ}
    {body : Option String} (h : request js net path = .unknown reason (some status) body) :
    ∃ text, body = some text := by
  unfold request at h
  split at h
  · simp at h
  · split at h
    · simp at h
    · simp only [RawQuery.unknown.injEq] at h
      exact ⟨_, h.2.2.symm⟩

/-- `getTxStatus` answers with what the responses have said. -/
theorem getTxStatus_known {js : Language} {net : Net} {txid : String} {status : Status}
    (h : getTxStatus js net txid = .ok (.known status)) : TxSaid js net txid status := by
  unfold getTxStatus at h
  cases htip : getTipHeight js net with
  | error e => simp [htip, bind, Except.bind] at h
  | ok tipRes =>
    simp only [htip, bind, Except.bind, pure, Except.pure] at h
    cases hreq : request js net s!"/tx/{txid}" with
    | unknown reason httpStatus body =>
      simp only [hreq] at h
      split at h
      · rename_i hsays
        obtain ⟨rfl, hbody⟩ := saysNotFound_eq_true hsays
        obtain ⟨text, rfl⟩ := request_unknown_body hreq
        obtain rfl : ⟨false, false, .finite 0, none⟩ = status := by simpa using h
        exact .notFound reason text hreq hbody
      · simp at h
    | known tx =>
      cases tipRes with
      | unknown reason => simp [hreq] at h
      | known tip =>
        have hread := getTipHeight_known htip
        simp only [hreq] at h
        split at h
        · simp at h
        · rename_i hconfirmed
          obtain rfl : ⟨true, false, .finite 0, none⟩ = status := by simpa using h
          exact .unconfirmed tx tip hreq hread (asBoolean_eq_some.mp hconfirmed)
        · rename_i hconfirmed
          split at h
          · simp at h
          · rename_i height hheight
            obtain rfl : ⟨true, true, depth tip height, some height⟩ = status := by
              simpa using h
            exact .confirmed tx tip height hreq hread
              ⟨asBoolean_eq_some.mp hconfirmed, asNumber_eq_some.mp hheight⟩

/-- `getSpend` answers with what the response has said. -/
theorem getSpend_known {js : Language} {net : Net} {o : Outpoint} {spend : Spend}
    (h : getSpend js net o = .ok (.known spend)) : SpendSaid js net o spend := by
  unfold getSpend at h
  cases hreq : request js net s!"/tx/{o.txid}/outspend/{o.vout}" with
  | unknown reason httpStatus body =>
    rw [hreq] at h
    simp at h
  | known res =>
    rw [hreq] at h
    dsimp only at h
    split at h
    · simp at h
    · rename_i hspent
      obtain rfl : Spend.unspent = spend := by simpa using h
      exact .unspent res hreq (asBoolean_eq_some.mp hspent)
    · rename_i hspent
      cases htxid : (asString (res.field "txid")).filter isHex64 with
      | none => simp [htxid] at h
      | some txid =>
        obtain ⟨hstr, hhex⟩ := Option.filter_eq_some_iff.mp htxid
        simp only [htxid] at h
        -- whether the witness can be read makes no difference to the rest
        have hwitness : ∃ witness, Spend.spent txid
            (asBoolean (res.field₂ "status" "confirmed") = some true) witness = spend := by
          split at h
          · obtain ⟨witness, -, h⟩ := Except.bind_eq_ok_iff.mp h
            exact ⟨witness, by simpa [pure, Except.pure] using h⟩
          · obtain ⟨witness, -, h⟩ := Except.bind_eq_ok_iff.mp h
            exact ⟨witness, by simpa [pure, Except.pure] using h⟩
        obtain ⟨witness, rfl⟩ := hwitness
        refine .spent res txid _ witness hreq (asBoolean_eq_some.mp hspent)
          (asString_eq_some.mp hstr) hhex ?_ ?_
        · intro hc
          exact asBoolean_eq_some.mp (of_decide_eq_true hc)
        · intro b hb
          have hbool : asBoolean (res.field₂ "status" "confirmed") = some b :=
            asBoolean_eq_some.mpr hb
          cases b <;> simp [hbool]

/-! ## The verdicts -/

/-- The loop keeps every entry of the list. -/
theorem readUtxos_length {tip : ℕ} {us : List Json} {funds : Funds}
    (h : readUtxos tip us = some funds) :
    funds.confirmed.length + funds.mempool.length = us.length := by
  induction us generalizing funds with
  | nil =>
    simp only [readUtxos, Option.some.injEq] at h
    subst h
    rfl
  | cons u us ih =>
    simp only [readUtxos, Option.bind_eq_bind, Option.bind_eq_some_iff] at h
    obtain ⟨⟨isConfirmed, x⟩, -, rest, hrest, h⟩ := h
    have hlength := ih hrest
    cases isConfirmed <;> simp [pure] at h <;> subst h <;>
      simp only [List.length_cons] <;> omega

theorem exists_of_mem_forall₂ {α β : Type} {r : α → β → Prop} {as : List α} {bs : List β}
    (h : List.Forall₂ r as bs) {b : β} (hb : b ∈ bs) : ∃ a ∈ as, r a b := by
  induction h with
  | nil => simp at hb
  | cons hab _ ih =>
    rcases List.mem_cons.mp hb with rfl | hb
    · exact ⟨_, List.mem_cons_self, hab⟩
    · obtain ⟨a, ha, hr⟩ := ih hb
      exact ⟨a, List.mem_cons_of_mem _ ha, hr⟩

theorem FundsSaid.mem_confirmed {us : List Json} {tip : ℕ} {funds : Funds}
    (h : FundsSaid us tip funds) {x : Utxo} (hx : x ∈ funds.confirmed) :
    ∃ u ∈ us, Names u x ∧ ∃ height, SaysBlock u height ∧ x.confirmations = depth tip height := by
  obtain ⟨u, hu, hsaid⟩ := exists_of_mem_forall₂ h.confirmed hx
  exact ⟨u, List.mem_of_mem_filter hu, hsaid⟩

/-- An empty confirmed list: no entry was said to be in a block. -/
theorem FundsSaid.no_block {us : List Json} {tip : ℕ} {funds : Funds}
    (h : FundsSaid us tip funds) (hempty : funds.confirmed = []) :
    ∀ u ∈ us, ∀ height, ¬ SaysBlock u height := by
  intro u hu height hblock
  have hfilter : (us.filter fun u => (blockOf u).isSome) = [] := by
    have hforall := h.confirmed
    rw [hempty] at hforall
    exact List.forall₂_nil_right_iff.mp hforall
  have hmem : u ∈ us.filter fun u => (blockOf u).isSome :=
    List.mem_filter.mpr ⟨hu, by simp [blockOf_eq_some.mpr hblock]⟩
  rw [hfilter] at hmem
  exact List.not_mem_nil hmem

/-- The verdicts without a confirmed output are of known funds without one. -/
theorem judgeFunding_unfunded {funds : Query Funds} {amountSat : ℚ}
    (h : judgeFunding funds amountSat = .none ∨ judgeFunding funds amountSat = .pending) :
    ∃ read, funds = .known read ∧ read.confirmed = [] ∧
      (judgeFunding funds amountSat = .none ↔ read.mempool = []) := by
  cases funds with
  | unknown reason => simp [judgeFunding] at h
  | known read =>
    rcases hconfirmed : read.confirmed with _ | ⟨utxo, _ | ⟨utxo', rest⟩⟩
    · refine ⟨read, rfl, hconfirmed, ?_⟩
      simp only [judgeFunding, hconfirmed]
      split <;> simp_all
    · simp only [judgeFunding, hconfirmed] at h
      split_ifs at h <;> simp at h
    · simp [judgeFunding, hconfirmed] at h

/-- `none` is said of an empty list. -/
theorem judgeFunding_none {js : Language} {net : Net} {address : String} {funds : Query Funds}
    {amountSat : ℚ} (hfunds : getAddressFunds js net address = .ok funds)
    (h : judgeFunding funds amountSat = .none) :
    request js net s!"/address/{address}/utxo" = .known (.arr []) := by
  obtain ⟨read, rfl, hconfirmed, hmempool⟩ := judgeFunding_unfunded (.inl h)
  obtain ⟨us, tip, hreq, -, hread⟩ := getAddressFunds_read hfunds
  have hlength := readUtxos_length hread
  rw [hconfirmed, hmempool.mp h] at hlength
  rw [hreq, List.length_eq_zero_iff.mp hlength.symm]

/-- `pending` is said of a list whose entries are in no block. -/
theorem judgeFunding_pending {js : Language} {net : Net} {address : String} {funds : Query Funds}
    {amountSat : ℚ} (hfunds : getAddressFunds js net address = .ok funds)
    (h : judgeFunding funds amountSat = .pending) :
    ∃ us tip, request js net s!"/address/{address}/utxo" = .known (.arr us) ∧
      TipRead js net tip ∧ us ≠ [] ∧ ∀ u ∈ us, ∀ height, ¬ SaysBlock u height := by
  obtain ⟨read, rfl, hconfirmed, hmempool⟩ := judgeFunding_unfunded (.inr h)
  obtain ⟨us, tip, hreq, htip, hsaid⟩ := getAddressFunds_known hfunds
  refine ⟨us, tip, hreq, htip, ?_, hsaid.no_block hconfirmed⟩
  obtain ⟨x, hx⟩ := List.exists_mem_of_ne_nil read.mempool fun hnil => by
    rw [hmempool.mpr hnil] at h
    simp at h
  obtain ⟨-, u, hu, -⟩ := hsaid.mempool x hx
  exact List.ne_nil_of_mem hu

/-! ## The pinned outpoint -/

/-- What makes the pinned outpoint shallow: its entry in the list says so, or it is said to be
unspent and its transaction unconfirmed. -/
inductive ShallowSaid (js : Language) (net : Net) (address : String) (pinned : Outpoint)
    (required : ℕ) (spendNet txNet : Net) : Num → Prop
  | inBlock (us : List Json) (tip : ℕ) (u : Json) (x : Utxo) (height : Num)
      (hlist : request js net s!"/address/{address}/utxo" = .known (.arr us))
      (htip : TipRead js net tip) (hu : u ∈ us) (hnames : Names u x) (hat : x.isAt pinned)
      (hblock : SaysBlock u height) (hdepth : (depth tip height).below required) :
      ShallowSaid js net address pinned required spendNet txNet (depth tip height)
  | inMempool (us : List Json) (u : Json) (x : Utxo)
      (hlist : request js net s!"/address/{address}/utxo" = .known (.arr us))
      (hu : u ∈ us) (hnames : Names u x) (hat : x.isAt pinned)
      (hblock : ∀ height, ¬ SaysBlock u height) :
      ShallowSaid js net address pinned required spendNet txNet (.finite 0)
  | unlisted (hspend : SpendSaid js spendNet pinned .unspent)
      (htx : TxSaid js txNet pinned.txid ⟨true, false, .finite 0, none⟩) :
      ShallowSaid js net address pinned required spendNet txNet (.finite 0)

theorem TxSaid.unseen {js : Language} {net : Net} {txid : String} {status : Status}
    (h : TxSaid js net txid status) (hseen : status.seen = false) :
    status = ⟨false, false, .finite 0, none⟩ := by
  cases h with
  | notFound reason body hres hbody => rfl
  | unconfirmed tx tip hres htip hsaid => simp at hseen
  | confirmed tx tip height hres htip hsaid => simp at hseen

theorem TxSaid.waiting {js : Language} {net : Net} {txid : String} {status : Status}
    (h : TxSaid js net txid status) (hseen : status.seen ≠ false)
    (hconfirmed : status.confirmed = false) : status = ⟨true, false, .finite 0, none⟩ := by
  cases h with
  | notFound reason body hres hbody => simp at hseen
  | unconfirmed tx tip hres htip hsaid => rfl
  | confirmed tx tip height hres htip hsaid => simp at hconfirmed

/-- What the list alone says about the pinned outpoint. -/
theorem judgePinnedFunding_shallow {funds : Query Funds} {pinned : Outpoint} {amountSat : ℚ}
    {n : Num} (h : judgePinnedFunding funds pinned amountSat = .shallow n) :
    ∃ read, funds = .known read ∧
      ((∃ x ∈ read.confirmed, x.isAt pinned ∧ x.confirmations = n ∧
          n.below (requiredConfirmations amountSat)) ∨
        ∃ x ∈ read.mempool, x.isAt pinned ∧ n = .finite 0) := by
  cases funds with
  | unknown reason => simp [judgePinnedFunding] at h
  | known read =>
    refine ⟨read, rfl, ?_⟩
    simp only [judgePinnedFunding] at h
    split at h
    · rename_i x hfind
      have hx : x ∈ read.confirmed := List.mem_of_find?_eq_some hfind
      have hat : x.isAt pinned := by simpa using List.find?_some hfind
      split at h
      · rename_i hbelow
        obtain rfl : x.confirmations = n := by simpa using h
        exact .inl ⟨x, hx, hat, rfl, hbelow⟩
      · simp at h
    · split at h
      · rename_i hany
        obtain ⟨x, hx, hat⟩ := List.any_eq_true.mp hany
        obtain rfl : Num.finite 0 = n := by simpa using h
        exact .inr ⟨x, hx, hat, rfl⟩
      · simp at h

theorem judgePinnedFunding_ne_gone {funds : Query Funds} {pinned : Outpoint} {amountSat : ℚ} :
    judgePinnedFunding funds pinned amountSat ≠ .gone := by
  unfold judgePinnedFunding
  repeat' split
  all_goals simp

/-- `gone` and `shallow` of the pinned outpoint: of the list, or of the two further queries. -/
theorem gatherPinnedFacts_cases {P : Type} {lib : BtcSigner P} {js : Language}
    {order : OnchainOrder} {funds : Query Funds} {spendNet txNet : Net} {facts : Pinned}
    (h : gatherPinnedFacts lib js order funds spendNet txNet = .ok (some facts)) :
    ∃ pinned, parseOutpoint order.fundingOutpoint = some pinned ∧
      (judgePinnedFunding funds pinned order.amountSat = facts ∨
        (∃ reason, facts = .unknown reason) ∨
        (∃ txid leaf confirmed, facts = .spent txid leaf confirmed) ∨
        ∃ status, SpendSaid js spendNet pinned .unspent ∧
          TxSaid js txNet pinned.txid status ∧
          (status.seen = false ∧ facts = .gone ∨
            status.seen ≠ false ∧ status.confirmed = false ∧ facts = .shallow (.finite 0))) := by
  unfold gatherPinnedFacts at h
  cases hpinned : parseOutpoint order.fundingOutpoint with
  | none => simp [hpinned] at h
  | some pinned =>
    refine ⟨pinned, rfl, ?_⟩
    simp only [hpinned] at h
    split at h
    · obtain ⟨spend, hspend, h⟩ := Except.bind_eq_ok_iff.mp h
      right
      split at h
      · rename_i reason
        exact .inl ⟨reason, by simpa [pure, Except.pure] using h.symm⟩
      · rename_i txid confirmed witness
        obtain ⟨descriptor, -, h⟩ := Except.bind_eq_ok_iff.mp h
        obtain ⟨leaf, -, h⟩ := Except.bind_eq_ok_iff.mp h
        exact .inr (.inl ⟨txid, leaf, confirmed, by simpa [pure, Except.pure] using h.symm⟩)
      · obtain ⟨status, hstatus, h⟩ := Except.bind_eq_ok_iff.mp h
        split at h
        · rename_i reason
          exact .inl ⟨reason, by simpa [pure, Except.pure] using h.symm⟩
        · rename_i status
          have hunspent := getSpend_known hspend
          have htx := getTxStatus_known hstatus
          split at h
          · rename_i hseen
            exact .inr (.inr ⟨status, hunspent, htx, .inl
              ⟨hseen, by simpa [pure, Except.pure] using h.symm⟩⟩)
          · rename_i hseen
            split at h
            · rename_i hconfirmed
              exact .inr (.inr ⟨status, hunspent, htx, .inr
                ⟨hseen, hconfirmed, by simpa [pure, Except.pure] using h.symm⟩⟩)
            · exact .inl ⟨_, by simpa [pure, Except.pure] using h.symm⟩
    · exact .inl (by simpa using h)

/-- `gone`: the output is said to be unspent and its transaction not found. -/
theorem gatherPinnedFacts_gone {P : Type} {lib : BtcSigner P} {js : Language}
    {order : OnchainOrder} {funds : Query Funds} {spendNet txNet : Net}
    (h : gatherPinnedFacts lib js order funds spendNet txNet = .ok (some .gone)) :
    ∃ pinned, parseOutpoint order.fundingOutpoint = some pinned ∧
      SpendSaid js spendNet pinned .unspent ∧
      TxSaid js txNet pinned.txid ⟨false, false, .finite 0, none⟩ := by
  obtain ⟨pinned, hpinned, hcases⟩ := gatherPinnedFacts_cases h
  refine ⟨pinned, hpinned, ?_⟩
  rcases hcases with hjudged | ⟨reason, hfacts⟩ | ⟨txid, leaf, confirmed, hfacts⟩ |
    ⟨status, hunspent, htx, ⟨hseen, -⟩ | ⟨-, -, hfacts⟩⟩
  · exact absurd hjudged judgePinnedFunding_ne_gone
  · simp at hfacts
  · simp at hfacts
  · rw [htx.unseen hseen] at htx
    exact ⟨hunspent, htx⟩
  · simp at hfacts

/-- `shallow`: one of the responses says so. -/
theorem gatherPinnedFacts_shallow {P : Type} {lib : BtcSigner P} {js : Language}
    {order : OnchainOrder} {net spendNet txNet : Net} {address : String} {funds : Query Funds}
    {n : Num} (hfunds : getAddressFunds js net address = .ok funds)
    (h : gatherPinnedFacts lib js order funds spendNet txNet = .ok (some (.shallow n))) :
    ∃ pinned, parseOutpoint order.fundingOutpoint = some pinned ∧
      ShallowSaid js net address pinned (requiredConfirmations order.amountSat) spendNet txNet
        n := by
  obtain ⟨pinned, hpinned, hcases⟩ := gatherPinnedFacts_cases h
  refine ⟨pinned, hpinned, ?_⟩
  rcases hcases with hjudged | ⟨reason, hfacts⟩ | ⟨txid, leaf, confirmed, hfacts⟩ |
    ⟨status, hunspent, htx, ⟨-, hfacts⟩ | ⟨hseen, hconfirmed, hfacts⟩⟩
  · obtain ⟨read, rfl, hread⟩ := judgePinnedFunding_shallow hjudged
    obtain ⟨us, tip, hlist, htip, hsaid⟩ := getAddressFunds_known hfunds
    rcases hread with ⟨x, hx, hat, rfl, hbelow⟩ | ⟨x, hx, hat, rfl⟩
    · obtain ⟨u, hu, hnames, height, hblock, hdepth⟩ := hsaid.mem_confirmed hx
      rw [hdepth] at hbelow ⊢
      exact .inBlock us tip u x height hlist htip hu hnames hat hblock hbelow
    · obtain ⟨-, u, hu, hnames, hblock⟩ := hsaid.mempool x hx
      exact .inMempool us u x hlist hu hnames hat hblock
  · simp at hfacts
  · simp at hfacts
  · simp at hfacts
  · obtain rfl : n = .finite 0 := by simpa using hfacts
    rw [htx.waiting hseen hconfirmed] at htx
    exact .unlisted hunspent htx

/-! ## All of it -/

/-- Whatever comes of the requests, a query answers what it has been told, and the verdicts that
cancel or take back a funding are read off a response that says so. -/
theorem answers_as_said {P : Type} (lib : BtcSigner P) (js : Language)
    (net spendNet txNet : Net) (address txid : String) (outpoint : Outpoint)
    (order : OnchainOrder) (amountSat : ℚ) :
    (∀ funds, getAddressFunds js net address = .ok (.known funds) →
      ∃ us tip, request js net s!"/address/{address}/utxo" = .known (.arr us) ∧
        TipRead js net tip ∧ FundsSaid us tip funds) ∧
    (∀ tip, getTipHeight js net = .ok tip →
      (∃ reason httpStatus body,
          request js net s!"/address/{address}/utxo" = .unknown reason httpStatus body) ∨
        (∃ reason, tip = .unknown reason) →
      ∃ reason, getAddressFunds js net address = .ok (.unknown reason)) ∧
    (∀ status, getTxStatus js net txid = .ok (.known status) → TxSaid js net txid status) ∧
    (∀ spend, getSpend js net outpoint = .ok (.known spend) →
      SpendSaid js net outpoint spend) ∧
    ∀ funds, getAddressFunds js net address = .ok funds →
      (judgeFunding funds amountSat = .none →
        request js net s!"/address/{address}/utxo" = .known (.arr [])) ∧
      (judgeFunding funds amountSat = .pending →
        ∃ us tip, request js net s!"/address/{address}/utxo" = .known (.arr us) ∧
          TipRead js net tip ∧ us ≠ [] ∧ ∀ u ∈ us, ∀ height, ¬ SaysBlock u height) ∧
      (gatherPinnedFacts lib js order funds spendNet txNet = .ok (some .gone) →
        ∃ pinned, parseOutpoint order.fundingOutpoint = some pinned ∧
          SpendSaid js spendNet pinned .unspent ∧
          TxSaid js txNet pinned.txid ⟨false, false, .finite 0, none⟩) ∧
      ∀ n, gatherPinnedFacts lib js order funds spendNet txNet = .ok (some (.shallow n)) →
        ∃ pinned, parseOutpoint order.fundingOutpoint = some pinned ∧
          ShallowSaid js net address pinned (requiredConfirmations order.amountSat)
            spendNet txNet n := by
  refine ⟨fun funds => getAddressFunds_known, fun tip => getAddressFunds_unknown,
    fun status => getTxStatus_known, fun spend => getSpend_known, fun funds hfunds => ?_⟩
  refine ⟨judgeFunding_none hfunds, judgeFunding_pending hfunds, gatherPinnedFacts_gone, ?_⟩
  intro n
  exact gatherPinnedFacts_shallow hfunds

/-! ## Answers in whole numbers

`OcChain` has the outputs, the blocks and the tip as natural numbers.  On such answers it is what
the queries over HTTP give.
-/

/-- An output of `OcChain`. -/
def ofUtxo (u : ChainUtxo) : Utxo :=
  ⟨u.txid, .finite u.vout, .finite u.valueSat, .finite u.confirmations⟩

/-- Funds of `OcChain`. -/
def ofFunds (funds : AddressFunds) : Funds :=
  ⟨funds.confirmed.map ofUtxo, funds.mempool.map ofUtxo⟩

/-- An answer of `OcChain`. -/
def ofQuery : Query AddressFunds → Query Funds
  | .known funds => .known (ofFunds funds)
  | .unknown reason => .unknown reason

/-- A state of the pinned outpoint in `OcChain`. -/
def ofPinned : PinnedFundingState → Pinned
  | .unknown reason => .unknown reason
  | .alive n => .alive (.finite n)
  | .shallow n => .shallow (.finite n)
  | .missing => .missing

/-- The entry `u` reads as the raw output. -/
structure Reads (u : Json) (raw : RawUtxo) : Prop where
  names : Names u (ofUtxo ⟨raw.txid, raw.vout, raw.valueSat, 0⟩)
  block : blockOf u = raw.blockHeight.map fun height => .finite height

/-- On whole numbers the depth is the truncated difference. -/
theorem depth_natCast (tip height : ℕ) :
    depth tip (.finite height) = .finite (tip + 1 - height : ℕ) := by
  simp only [depth, Num.finite.injEq]
  rcases Nat.le_total height (tip + 1) with hle | hle
  · rw [Nat.cast_sub hle, max_eq_right]
    · push_cast
      ring
    · have : (height : ℚ) ≤ tip + 1 := by exact_mod_cast hle
      linarith
  · rw [Nat.sub_eq_zero_of_le hle, max_eq_left]
    · simp
    · have : (tip + 1 : ℚ) ≤ height := by exact_mod_cast hle
      linarith

theorem readUtxo_reads {u : Json} {raw : RawUtxo} (h : Reads u raw) (tip : ℕ) :
    readUtxo tip u = some (raw.blockHeight.isSome, ofUtxo (raw.counted tip)) := by
  obtain ⟨htxid, hvout, hvalue⟩ := h.names
  have hblock := h.block
  cases hheight : raw.blockHeight with
  | none =>
    simp [readUtxo, htxid, hvout, hvalue, hblock, hheight, asString, asNumber, ofUtxo,
      RawUtxo.counted]
  | some height =>
    simp [readUtxo, htxid, hvout, hvalue, hblock, hheight, asString, asNumber, ofUtxo,
      RawUtxo.counted, depth_natCast]

theorem readUtxos_reads {us : List Json} {raws : List RawUtxo} (h : List.Forall₂ Reads us raws)
    (tip : ℕ) : readUtxos tip us = some (ofFunds
      ⟨(raws.filter fun u => u.blockHeight.isSome).map (RawUtxo.counted tip),
        (raws.filter fun u => u.blockHeight.isNone).map (RawUtxo.counted tip)⟩) := by
  induction h with
  | nil => rfl
  | @cons u raw us raws hread _ ih =>
    cases hheight : raw.blockHeight with
    | none => simp [readUtxos, readUtxo_reads hread, ih, hheight, ofFunds]
    | some height => simp [readUtxos, readUtxo_reads hread, ih, hheight, ofFunds]

/-- `getAddressFunds` over HTTP is that of `OcChain` where the list and the tip are read. -/
theorem getAddressFunds_reads {js : Language} {net : Net} {address : String} {us : List Json}
    {raws : List RawUtxo} {tip : Query ℕ}
    (hreq : request js net s!"/address/{address}/utxo" = .known (.arr us))
    (htip : getTipHeight js net = .ok tip) (hreads : List.Forall₂ Reads us raws) :
    getAddressFunds js net address = .ok (ofQuery (LnPay.getAddressFunds (.known raws) tip)) := by
  simp only [getAddressFunds, htip, hreq, bind, Except.bind, pure, Except.pure]
  cases tip with
  | unknown reason => rfl
  | known tip =>
    have hpos : LnPay.getTipHeight (.known tip) = .known tip :=
      LnPay.getTipHeight_known.mpr ⟨rfl, (getTipHeight_known htip).choose_spec.2.2⟩
    simp only [readUtxos_reads hreads tip, LnPay.getAddressFunds, hpos]
    rfl

theorem isAt_ofUtxo (u : ChainUtxo) (o : Outpoint) :
    (ofUtxo u).isAt o = decide (u.outpoint = o) := by
  rcases o with ⟨txid, vout⟩
  rw [Bool.eq_iff_iff]
  simp only [Utxo.isAt, ofUtxo, ChainUtxo.outpoint, Bool.and_eq_true, decide_eq_true_iff,
    Num.finite.injEq, Nat.cast_inj, Outpoint.mk.injEq]
  exact and_congr_left fun _ => decide_eq_true_iff

/-- And so is the verdict on the pinned outpoint. -/
theorem judgePinnedFunding_ofQuery (funds : Query AddressFunds) (pinned : Outpoint)
    (amountSat : ℚ) : judgePinnedFunding (ofQuery funds) pinned amountSat =
      ofPinned (LnPay.judgePinnedFunding funds pinned amountSat) := by
  cases funds with
  | unknown reason => rfl
  | known funds =>
    simp only [judgePinnedFunding, LnPay.judgePinnedFunding, ofQuery, ofFunds, List.find?_map,
      List.any_map, Function.comp_def, isAt_ofUtxo]
    cases funds.confirmed.find? fun u => decide (u.outpoint = pinned) with
    | none =>
      simp only [Option.map_none]
      split <;> rfl
    | some u =>
      simp only [Option.map_some, ofUtxo, Num.below, Nat.cast_lt, decide_eq_true_eq]
      by_cases hdeep : requiredConfirmations amountSat ≤ u.confirmations
      · rw [if_pos hdeep, if_neg (by omega)]
        rfl
      · rw [if_neg hdeep, if_pos (by omega)]
        rfl

/-! ## A confirmed entry without a height -/

/-- A list of one entry, `confirmed` with no `block_height`. -/
def heightless : Json :=
  .obj [("txid", .str "aa"), ("vout", .num (.finite 0)), ("value", .num (.finite 1)),
    ("status", .obj [("confirmed", .bool true)])]

/-- The functions of the language at the two bodies of `heightlessNet`. -/
def heightlessLanguage : Language where
  parse text := if text = "900000" then some (.num (.finite 900000)) else some (.arr [heightless])
  trim text := text
  number value := .ok (asNumber (some value))
  text _ := .ok ""

/-- The list, and a tip. -/
def heightlessNet : Net := fun path =>
  if path = "/blocks/tip/height" then .answered 200 "900000"
  else .answered 200
    "[\x7b\"txid\":\"aa\",\"vout\":0,\"value\":1,\"status\":\x7b\"confirmed\":true\x7d\x7d]"

/-- An entry said to be confirmed is placed outside the confirmed list, and the funding is judged
`pending`. -/
theorem confirmed_not_placed :
    ¬ ∀ (js : Language) (net : Net) (address : String) (us : List Json) (funds : Funds),
      request js net s!"/address/{address}/utxo" = .known (.arr us) →
      getAddressFunds js net address = .ok (.known funds) →
      (∀ u ∈ us, SaysConfirmed u true → ∃ x ∈ funds.confirmed, Names u x) ∧
        (judgeFunding (.known funds) 1 = .pending → ∀ u ∈ us, ¬ SaysConfirmed u true) := by
  intro h
  have hsaid : SaysConfirmed heightless true := rfl
  obtain ⟨x, hx, -⟩ := (h heightlessLanguage heightlessNet "a" [heightless]
    ⟨[], [⟨"aa", .finite 0, .finite 1, .finite 0⟩]⟩ (by rfl) (by rfl)).1 heightless
      List.mem_cons_self hsaid
  exact List.not_mem_nil hx

end Explorer

end LnPay
