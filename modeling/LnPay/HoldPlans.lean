/-
# The hash of a planned invoice (`daemon/src/hold`, `daemon/src/derive.ts`)

A row carries the hash of the label of its purpose, order, attempt and, for a
sponsor, person; distinct labels have distinct hashes (`preimageLabel_inj`).
The attempts of one purpose, order and person are numbered from zero without a
gap (`Numbered`).

So `plan` finds its hash taken in one case only: the scope of the purpose leaves
the person out, and somebody else has had more attempts (`Contested`).
-/
import LnPay.LnSound

namespace LnPay

/-! ## Labels -/

theorem toDigits_injective : Function.Injective (Nat.toDigits 10) := by
  have digit : ∀ {a b : ℕ}, a < 10 → b < 10 → a.digitChar = b.digitChar → a = b := by
    intro a b ha hb h
    rw [← Nat.toNat_digitChar_sub_48_of_lt_ten ha, h, Nat.toNat_digitChar_sub_48_of_lt_ten hb]
  intro m
  induction m using Nat.strong_induction_on with
  | _ m ih =>
    intro n h
    rw [Nat.toDigits_eq_if (by decide), Nat.toDigits_eq_if (n := n) (by decide)] at h
    split at h <;> split at h
    · exact digit ‹_› ‹_› (List.singleton_injective h)
    · have := congrArg List.length h
      simp at this
    · have := congrArg List.length h
      simp at this
    · obtain ⟨hdiv, hmod⟩ := List.append_inj' h rfl
      have hdiv := ih (m / 10) (by omega) hdiv
      have hmod := digit (Nat.mod_lt m (by decide)) (Nat.mod_lt n (by decide))
        (List.singleton_injective hmod)
      omega

/-- What a label names, between its slashes. -/
def labelParts (purpose : HoldPurpose) (orderId : OrderId) (party : Pubkey) (attempt : ℕ) :
    List String :=
  purpose.text :: orderId ::
    if purpose.perParty = true ∧ party ≠ "" then [party, toString attempt] else [toString attempt]

section Labels

variable {purpose purpose' : HoldPurpose} {orderId orderId' : OrderId} {party party' : Pubkey}
  {attempt attempt' : ℕ} {scope scope' : String}

/-- A scope is made of an order id and a person without slashes. -/
theorem preimageScope_ok {person : Option Pubkey}
    (h : preimageScope purpose orderId person = .ok scope) :
    '/' ∉ orderId.toList ∧ (∀ q ∈ person, '/' ∉ q.toList) ∧
      scope = person.elim (purpose.text ++ "/" ++ orderId) fun q =>
        if q = "" then purpose.text ++ "/" ++ orderId
        else purpose.text ++ "/" ++ orderId ++ "/" ++ q := by
  unfold preimageScope at h
  split at h
  · cases h
  · rename_i hfree
    obtain ⟨hid, hperson⟩ := not_or.mp hfree
    refine ⟨hid, fun q hq hmem => hperson ⟨q, hq, hmem⟩, ?_⟩
    rw [← Except.ok.inj h]
    cases person <;> rfl

theorem preimageScope_error {person : Option Pubkey} {e : Abort}
    (h : preimageScope purpose orderId person = .error e) : e = .scopeSlash := by
  unfold preimageScope at h
  split at h
  · exact (Except.error.inj h).symm
  · cases h

theorem preimageLabel_eq (h : scopeOf purpose orderId party = .ok scope) :
    preimageLabel scope attempt =
      "lnpay/preimage/v1/" ++ "/".intercalate (labelParts purpose orderId party attempt) := by
  obtain ⟨-, -, rfl⟩ := preimageScope_ok h
  have hjoin : ∀ a b c : String, "/".intercalate [a, b, c] = a ++ "/" ++ b ++ "/" ++ c :=
    fun _ _ _ => rfl
  have hjoin' : ∀ a b c d : String,
      "/".intercalate [a, b, c, d] = a ++ "/" ++ b ++ "/" ++ c ++ "/" ++ d := fun _ _ _ _ => rfl
  unfold preimageLabel labelParts
  cases hp : purpose.perParty with
  | false =>
    rw [if_neg (by simp), if_neg (by simp), hjoin]
    simp only [Option.elim_none, String.append_assoc]
  | true =>
    rw [if_pos rfl]
    by_cases he : party = ""
    · rw [if_neg (by simp [he]), hjoin, Option.elim_some, if_pos he]
      simp only [String.append_assoc]
    · rw [if_pos ⟨rfl, he⟩, hjoin', Option.elim_some, if_neg he]
      simp only [String.append_assoc]

theorem slash_notMem_text (purpose : HoldPurpose) : '/' ∉ purpose.text.toList := by
  cases purpose <;> decide

theorem slash_notMem_toString (n : ℕ) : '/' ∉ (toString n).toList := by
  intro h
  have := Nat.isDigit_of_mem_toDigits (b := 10) (by decide) (by decide)
    (show '/' ∈ Nat.toDigits 10 n by simpa using h)
  revert this
  decide

/-- No part of a label has a slash in it. -/
theorem slash_notMem_labelParts (h : scopeOf purpose orderId party = .ok scope) :
    ∀ s ∈ labelParts purpose orderId party attempt, '/' ∉ s.toList := by
  obtain ⟨hid, hperson, -⟩ := preimageScope_ok h
  intro s hs
  rw [labelParts, List.mem_cons, List.mem_cons] at hs
  obtain rfl | rfl | hs := hs
  · exact slash_notMem_text purpose
  · exact hid
  · split at hs
    · rename_i hp
      obtain rfl | hs := List.mem_cons.mp hs
      · exact hperson s (by rw [if_pos hp.1]; rfl)
      · rw [List.mem_singleton.mp hs]
        exact slash_notMem_toString attempt
    · rw [List.mem_singleton.mp hs]
      exact slash_notMem_toString attempt

theorem HoldPurpose.text_injective : Function.Injective HoldPurpose.text := by
  intro p q h
  cases p <;> cases q <;> first | rfl | exact absurd h (by decide)

/-- **Distinct invoices have distinct labels**, except that most leave the person out. -/
theorem preimageLabel_inj (h : scopeOf purpose orderId party = .ok scope)
    (h' : scopeOf purpose' orderId' party' = .ok scope')
    (heq : preimageLabel scope attempt = preimageLabel scope' attempt') :
    purpose = purpose' ∧ orderId = orderId' ∧ attempt = attempt' ∧
      (purpose.perParty = true → party = party') := by
  rw [preimageLabel_eq h, preimageLabel_eq h', ← String.toList_inj, String.toList_append,
    String.toList_append, List.append_cancel_left_eq, String.toList_intercalate,
    String.toList_intercalate] at heq
  have hparts := congrArg (List.splitOn '/') heq
  have hfree : ∀ {purpose : HoldPurpose} {orderId : OrderId} {party : Pubkey} {attempt : ℕ}
      {scope : String}, scopeOf purpose orderId party = .ok scope →
      List.splitOn '/' ("/".toList.intercalate
        ((labelParts purpose orderId party attempt).map String.toList)) =
        (labelParts purpose orderId party attempt).map String.toList := by
    intro purpose orderId party attempt scope h
    refine List.splitOn_intercalate '/' (fun l hl => ?_) (by simp [labelParts])
    obtain ⟨s, hs, rfl⟩ := List.mem_map.mp hl
    exact slash_notMem_labelParts h s hs
  rw [hfree h, hfree h'] at hparts
  have hparts := List.map_injective_iff.mpr (fun _ _ => String.toList_inj.mp) hparts
  simp only [labelParts, List.cons.injEq] at hparts
  obtain ⟨htext, rfl, hrest⟩ := hparts
  obtain rfl := HoldPurpose.text_injective htext
  have hnum : ∀ {m n : ℕ}, toString m = toString n → m = n := by
    intro m n h
    refine toDigits_injective ?_
    simpa using congrArg String.toList h
  split at hrest <;> split at hrest
  · simp only [List.cons.injEq, and_true] at hrest
    exact ⟨rfl, rfl, hnum hrest.2, fun _ => hrest.1⟩
  · simp at hrest
  · simp at hrest
  · rename_i hp hp'
    simp only [List.cons.injEq, and_true] at hrest
    refine ⟨rfl, rfl, hnum hrest, fun hper => ?_⟩
    simp only [hper, true_and, not_not] at hp hp'
    rw [hp, hp']

end Labels

/-! ## Numbered attempts -/

section Numbered

variable {T E : Type} {purpose : HoldPurpose} {orderId : OrderId} {party : Pubkey} {db : Db T E}

/-- Two invoices of one purpose, order and person. -/
def HoldRow.SameParty (r s : HoldRow) : Prop :=
  s.purpose = r.purpose ∧ s.orderId = r.orderId ∧ s.party = r.party

/-- The row carries the hash of its label. -/
def HoldRow.Labelled (keys : KeyDerivation) (r : HoldRow) : Prop :=
  ∃ scope, scopeOf r.purpose r.orderId r.party = .ok scope ∧
    r.paymentHash = keys.paymentHashOf (preimageLabel scope r.attempt)

/-- All rows carry the hash of their label, and before each attempt there are all the lower ones. -/
def Numbered (keys : KeyDerivation) (db : Db T E) : Prop :=
  ∀ h r, db.holds.find h = some r → r.Labelled keys ∧
    ∀ k < r.attempt, ∃ h' s, db.holds.find h' = some s ∧ r.SameParty s ∧ s.attempt = k

/-- The next attempt is above all there are. -/
theorem lt_nextAttempt {h : Hash} {r : HoldRow} (hr : db.holds.find h = some r)
    (hp : r.purpose = purpose) (ho : r.orderId = orderId) (hparty : r.party = party) :
    r.attempt < nextAttempt purpose orderId party db := by
  have hmem : r.attempt ∈ (db.holds.rows.filter fun r =>
      r.purpose = purpose ∧ r.orderId = orderId ∧ r.party = party).map HoldRow.attempt := by
    apply List.mem_map_of_mem
    rw [List.mem_filter]
    exact ⟨KeyedTable.mem_of_find hr, by simp [hp, ho, hparty]⟩
  unfold nextAttempt
  split
  · rename_i hnone
    rw [List.max?_eq_none_iff.mp hnone] at hmem
    cases hmem
  · rename_i n hmax
    have hle := (List.max?_eq_some_iff.mp hmax).2 _ hmem
    omega

/-- Below the next attempt there is one that is at least as high. -/
theorem exists_of_lt_nextAttempt {k : ℕ} (hk : k < nextAttempt purpose orderId party db) :
    ∃ h r, db.holds.find h = some r ∧ r.purpose = purpose ∧ r.orderId = orderId ∧
      r.party = party ∧ k ≤ r.attempt := by
  unfold nextAttempt at hk
  split at hk
  · exact absurd hk (Nat.not_lt_zero k)
  · rename_i n hmax
    obtain ⟨r, hr, rfl⟩ := List.mem_map.mp (List.max?_eq_some_iff.mp hmax).1
    rw [List.mem_filter, KeyedTable.mem_rows_iff] at hr
    obtain ⟨hfind, hclass⟩ := hr
    obtain ⟨hp, ho, hparty⟩ := of_decide_eq_true hclass
    exact ⟨_, r, hfind, hp, ho, hparty, by omega⟩

/-- In a numbered ledger, all attempts below the next one are there. -/
theorem Numbered.below {keys : KeyDerivation} (hdb : Numbered keys db) {k : ℕ}
    (hk : k < nextAttempt purpose orderId party db) :
    ∃ h s, db.holds.find h = some s ∧ s.purpose = purpose ∧ s.orderId = orderId ∧
      s.party = party ∧ s.attempt = k := by
  obtain ⟨h, r, hr, hp, ho, hparty, hle⟩ := exists_of_lt_nextAttempt hk
  obtain rfl | hlt := hle.eq_or_lt
  · exact ⟨h, r, hr, hp, ho, hparty, rfl⟩
  · obtain ⟨h', s, hs, ⟨hp', ho', hparty'⟩, hk⟩ := (hdb h r hr).2 k hlt
    exact ⟨h', s, hs, hp'.trans hp, ho'.trans ho, hparty'.trans hparty, hk⟩

/-! ## Fresh hashes -/

/-- The hash that is derived for a plan is free, and nothing but a slash in an id makes it throw. -/
def PlanFresh [OwnEffect E] (keys : KeyDerivation) (now : ℤ) (p : HoldPlan) (db : Db T E) : Prop :=
  (∀ hash attempt, p.Derives keys db hash attempt → db.holds.find hash = none) ∧
    ∀ e, plan keys now p db = .error e → e = .scopeSlash

/-- The scope leaves the person out, and somebody else has had at least as many attempts as this plan
makes for its own person. -/
def Contested (p : HoldPlan) (db : Db T E) : Prop :=
  p.purpose.perParty = false ∧ ∃ h r, db.holds.find h = some r ∧ r.purpose = p.purpose ∧
    r.orderId = p.orderId ∧ r.party ≠ p.party ∧
    nextAttempt p.purpose p.orderId p.party db ≤ r.attempt

theorem scopeOf_party (hp : purpose.perParty = false) (party' : Pubkey) :
    scopeOf purpose orderId party = scopeOf purpose orderId party' := by
  rw [scopeOf, scopeOf, hp]
  rfl

/-- The row under the derived hash is somebody else's. -/
theorem Numbered.contested {keys : KeyDerivation} (hdb : Numbered keys db) {p : HoldPlan}
    {hash : Hash} {attempt : ℕ} {r : HoldRow} (hd : p.Derives keys db hash attempt)
    (hr : db.holds.find hash = some r) : Contested p db := by
  obtain ⟨rfl, scope, hscope, rfl⟩ := hd
  obtain ⟨⟨scope', hscope', hhash⟩, -⟩ := hdb _ r hr
  have hkey : r.paymentHash = _ := KeyedTable.key_of_find hr
  have hlabel := keys.injective (hhash.symm.trans hkey)
  obtain ⟨hp, ho, hattempt, hparty⟩ := preimageLabel_inj hscope' hscope hlabel
  have hother : r.party ≠ p.party := by
    intro hsame
    have hlt := lt_nextAttempt hr hp ho hsame
    omega
  refine ⟨?_, _, r, hr, hp, ho, hother, hattempt.ge⟩
  cases hper : p.purpose.perParty with
  | false => rfl
  | true => exact absurd (hparty (hp ▸ hper)) hother

/-- Where others have had more attempts, the derived hash is theirs. -/
theorem Numbered.taken {keys : KeyDerivation} (hdb : Numbered keys db) {p : HoldPlan}
    (h : Contested p db) : ∃ hash attempt, p.Derives keys db hash attempt ∧
      db.holds.find hash ≠ none := by
  obtain ⟨hper, h, r, hr, hp, ho, -, hle⟩ := h
  -- the attempt of the plan is one that the other has had
  have htheirs : ∃ h s, db.holds.find h = some s ∧ s.purpose = p.purpose ∧
      s.orderId = p.orderId ∧ s.attempt = nextAttempt p.purpose p.orderId p.party db := by
    obtain heq | hlt := hle.eq_or_lt
    · exact ⟨h, r, hr, hp, ho, heq.symm⟩
    · obtain ⟨h', s, hs, ⟨hp', ho', -⟩, hk⟩ := (hdb h r hr).2 _ hlt
      exact ⟨h', s, hs, hp'.trans hp, ho'.trans ho, hk⟩
  obtain ⟨h', s, hs, hp', ho', hattempt⟩ := htheirs
  obtain ⟨⟨scope, hscope, hhash⟩, -⟩ := hdb h' s hs
  have hkey : s.paymentHash = h' := KeyedTable.key_of_find hs
  refine ⟨h', s.attempt, ⟨hattempt, scope, ?_, hkey.symm.trans hhash⟩, ?_⟩
  · rw [← hscope, hp', ho']
    exact scopeOf_party hper s.party
  · rw [hs]
    exact Option.some_ne_none s

/-- In a numbered ledger a plan is fresh exactly when nobody else has had more attempts. -/
theorem Numbered.planFresh_iff [OwnEffect E] {keys : KeyDerivation} {now : ℤ} {p : HoldPlan}
    (hdb : Numbered keys db) : PlanFresh keys now p db ↔ ¬ Contested p db := by
  constructor
  · rintro ⟨hfree, -⟩ hcontested
    obtain ⟨hash, attempt, hd, htaken⟩ := hdb.taken hcontested
    exact htaken (hfree hash attempt hd)
  · intro hcontested
    have hfree : ∀ hash attempt, p.Derives keys db hash attempt → db.holds.find hash = none := by
      intro hash attempt hd
      cases hfind : db.holds.find hash with
      | none => rfl
      | some r => exact absurd (hdb.contested hd hfind) hcontested
    refine ⟨hfree, fun e he => ?_⟩
    unfold plan at he
    cases hscope : scopeOf p.purpose p.orderId p.party with
    | error e' =>
      rw [hscope] at he
      obtain rfl : e' = e := Except.error.inj he
      exact preimageScope_error hscope
    | ok scope =>
      rw [hscope] at he
      have hnone := hfree _ _ ⟨rfl, scope, hscope, rfl⟩
      have hinsert : ∃ db', insertHold (p.row (keys.paymentHashOf (preimageLabel scope
          (nextAttempt p.purpose p.orderId p.party db)))
          (nextAttempt p.purpose p.orderId p.party db) now) db = .ok db' := by
        unfold insertHold
        rw [if_neg]
        · split
          · rename_i hins
            obtain ⟨s, hs⟩ := KeyedTable.insert_eq_none_iff.mp hins
            exact absurd (hnone.symm.trans hs) (by simp)
          · exact ⟨_, rfl⟩
        · rintro ⟨s, hs, hp, ho, hparty, hattempt⟩
          have hlt := lt_nextAttempt (KeyedTable.mem_rows_iff.mp hs) hp ho hparty
          exact absurd hattempt hlt.ne
      obtain ⟨db', hinsert⟩ := hinsert
      dsimp only [bind, Except.bind] at he
      rw [hinsert] at he
      cases he

end Numbered

/-! ## In every run -/

section Runs

variable {c : EdgeCtx} {id : OrderId} {db db' : LnDb} {env : LnEnv} {w : LnWorld}

/-- An edge keeps the rows numbered. -/
theorem LnEdge.numbered (he : LnEdge c id db db') (hdb : Numbered c.env.keys db) :
    Numbered c.env.keys db' := by
  intro hash r' hr'
  -- a row that was there is there, with the same number
  have hkept : ∀ {r : HoldRow} {k : ℕ},
      (∃ h s, db.holds.find h = some s ∧ r.SameParty s ∧ s.attempt = k) →
      ∃ h s, db'.holds.find h = some s ∧ r.SameParty s ∧ s.attempt = k := by
    rintro r k ⟨h, s, hs, ⟨hp, ho, hparty⟩, hk⟩
    obtain ⟨s', hs', hlater⟩ := he.find_later hs
    exact ⟨h, s', hs', ⟨hlater.purpose.trans hp, hlater.orderId.trans ho,
      hlater.party.trans hparty⟩, hlater.attempt.trans hk⟩
  obtain hr | ⟨-, p, attempt, rfl, ⟨rfl, scope, hscope, hhash⟩, -⟩ | ⟨r, hr, hlater, -, -⟩ :=
    he.find_cases hr'
  · obtain ⟨hlabelled, hlower⟩ := hdb hash r' hr
    exact ⟨hlabelled, fun k hk => hkept (hlower k hk)⟩
  · refine ⟨⟨scope, hscope, hhash⟩, fun k hk => hkept ?_⟩
    obtain ⟨h, s, hs, hp, ho, hparty, hk⟩ := hdb.below hk
    exact ⟨h, s, hs, ⟨hp, ho, hparty⟩, hk⟩
  · obtain ⟨⟨scope, hscope, hhash⟩, hlower⟩ := hdb hash r hr
    constructor
    · refine ⟨scope, ?_, ?_⟩
      · rw [hlater.purpose, hlater.orderId, hlater.party]
        exact hscope
      · rw [hlater.paymentHash, hlater.attempt]
        exact hhash
    · intro k hk
      obtain ⟨h, s, hs, ⟨hp, ho, hparty⟩, hk⟩ := hlower k (hlater.attempt ▸ hk)
      exact hkept ⟨h, s, hs, ⟨hp.trans hlater.purpose.symm, ho.trans hlater.orderId.symm,
        hparty.trans hlater.party.symm⟩, hk⟩

theorem Moved.numbered (h : Moved c db db') (hdb : Numbered c.env.keys db) :
    Numbered c.env.keys db' := by
  refine h.keeps (P := Numbered c.env.keys) ?_ ?_ hdb
  · intro a b hprep ha
    rw [Numbered, hprep.holds]
    exact ha
  · rintro a b ⟨id, he⟩ ha
    exact he.numbered ha

/-- In every run the rows are numbered. -/
theorem numbered_of_reachable (hw : (lnSystem env).Reachable w) : Numbered env.keys w.db := by
  refine TransitionSystem.invariant (M := lnSystem env) (P := fun w => Numbered env.keys w.db) ?_ ?_
    hw
  · rintro _ ⟨now, rfl⟩ h r hr
    cases hr
  · intro a i b ha hdb hs
    exact Moved.numbered (step_moved (sound_of_reachable ha) hs) hdb

/-- **When a planned hold is fresh.**  Whatever state of the ledger a step has come to, and whatever
is planned there, on either track: the derived hash is free and the plan goes through if and only if
the scope names the person or nobody else has had more attempts. -/
theorem plan_fresh_iff (env : LnEnv) (w : LnWorld) (i : LnInput) (db : LnDb) (p : HoldPlan)
    (hw : (lnSystem env).Reachable w) (hdb : Moved (w.context env i) w.db db) :
    PlanFresh env.keys w.now p db ↔ ¬ Contested p db :=
  (Moved.numbered hdb (numbered_of_reachable hw)).planFresh_iff

end Runs

/-! ## An order id that is used again -/

/-- No request is aborted on the primary key of `ln_invoices`. -/
def RequestsPlanFresh (env : LnEnv) : Prop :=
  ∀ w action event price hash, (lnSystem env).Reachable w →
    LnCtx.handle ⟨env, w.now, price⟩ action event w.db ≠ .error (.duplicateHold hash)

/-- A request to sell that needs a deposit. -/
def depositRequest (c : Char) (h : isHex64 (samplePubkey c) = true) : LnEvent :=
  sampleEvent c h [["price", "10000"], ["deadline", "100000"]]

/-- A sale is asked for and withdrawn before its deposit is paid. -/
def withdrawnRequest : List LnInput :=
  [.configSet { (LnWorld.initial 0).db.track.settings with customerDepositPct := 5 },
    .request .orderRequest (depositRequest 'a' samplePubkey_a) (some (10 ^ 8)),
    .request .cancelRequest (sampleEvent 'a' samplePubkey_a []) none]

/-- Somebody else asks for a sale under the same order id: the hash is that of the first deposit, and
the request is aborted. -/
theorem reused_order_id_aborts : ¬ RequestsPlanFresh sampleEnv := by
  intro hclaim
  have hrun : ((sampleRun withdrawnRequest).map fun w =>
      (LnCtx.handle ⟨sampleEnv, w.now, some (10 ^ 8)⟩ .orderRequest
        (depositRequest 'b' samplePubkey_b) w.db).map fun _ => ()) =
      some (.error (.duplicateHold "lnpay/preimage/v1/ln-customer-deposit/ord1/0")) := by
    decide +kernel
  obtain ⟨w, hw, hhandle⟩ := Option.map_eq_some_iff.mp hrun
  have habort := hclaim w .orderRequest (depositRequest 'b' samplePubkey_b) (some (10 ^ 8))
    "lnpay/preimage/v1/ln-customer-deposit/ord1/0" (reachable_of_sampleRun hw)
  cases hr : LnCtx.handle ⟨sampleEnv, w.now, some (10 ^ 8)⟩ .orderRequest
      (depositRequest 'b' samplePubkey_b) w.db with
  | ok x =>
    rw [hr] at hhandle
    cases hhandle
  | error e =>
    rw [hr] at hhandle
    obtain rfl := Except.error.inj hhandle
    exact habort hr

/-- The seller who has withdrawn may ask again. -/
theorem plan_fresh_iff_again :
    ∃ w, (lnSystem sampleEnv).Reachable w ∧ w.db.holds.rows ≠ [] ∧
      PlanFresh sampleEnv.keys w.now
        ⟨.lnCustomerDeposit, "ord1", samplePubkey 'a', 500, 900, 1000⟩ w.db := by
  have hrun : ((sampleRun withdrawnRequest).map fun w => decide (w.db.holds.rows ≠ [] ∧
      ∀ r ∈ w.db.holds.rows, r.party = samplePubkey 'a')) = some true := by
    decide +kernel
  obtain ⟨w, hw, hrows⟩ := Option.map_eq_some_iff.mp hrun
  obtain ⟨hne, hparty⟩ := of_decide_eq_true hrows
  have hreach := reachable_of_sampleRun hw
  refine ⟨w, hreach, hne, ?_⟩
  refine (plan_fresh_iff sampleEnv w (.tick 0) w.db _ hreach (Moved.refl _ _)).mpr ?_
  rintro ⟨-, h, r, hr, -, -, hother, -⟩
  exact hother (hparty r (KeyedTable.mem_of_find hr))

end LnPay
