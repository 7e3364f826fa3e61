/-
# Getting preimages back (`daemon/src/derive.ts`, `daemon/src/hold/index.ts`)

Preimages are stored nowhere.  The seed and the label of an invoice give its
preimage again: `preimageOf` from the row, and `recoverPreimage`, when the
database is lost, from the payment hash and the scope, by going through the
attempts.

A label is unambiguous because neither an order id nor a pubkey has a slash.
-/
import LnPay.HoldPlans
import LnPay.Escrow

namespace LnPay

/-! ## Derivation from the seed -/

/-- The hashes of the platform, HMAC under the seed; on labels they do not collide. -/
structure SeedDerivation where
  hmac : String → Bytes
  /-- `paymentHashOf`: SHA-256, in hex -/
  paymentHashOf : Bytes → Hash
  injective : Function.Injective fun label => paymentHashOf (hmac label)

namespace SeedDerivation

variable (d : SeedDerivation)

/-- What `plan` takes of it: the payment hash of a label. -/
def keys : KeyDerivation := ⟨fun label => d.paymentHashOf (d.hmac label), d.injective⟩

/-- `derivePreimage`. -/
def derivePreimage (scope : String) (attempt : ℕ) : Bytes := d.hmac (preimageLabel scope attempt)

/-- The loop of `recoverPreimage`, with so many attempts left. -/
def recoverFrom (scope : String) (paymentHash : Hash) : ℕ → ℕ → Option (Bytes × ℕ)
  | 0, _ => none
  | left + 1, attempt =>
    let preimage := d.derivePreimage scope attempt
    if d.paymentHashOf preimage = paymentHash then some (preimage, attempt)
    else recoverFrom scope paymentHash left (attempt + 1)

/-- `recoverPreimage`. -/
def recoverPreimage (scope : String) (paymentHash : Hash) (maxAttempts : ℕ) :
    Option (Bytes × ℕ) := d.recoverFrom scope paymentHash maxAttempts 0

/-- `preimageOf`. -/
def preimageOf (inv : HoldRow) : Except String String :=
  match scopeOf inv.purpose inv.orderId inv.party with
  | .error e => .error e.message
  | .ok scope =>
    let preimage := d.derivePreimage scope inv.attempt
    if d.paymentHashOf preimage = inv.paymentHash then .ok (bytesToHex preimage)
    else .error ("프리이미지가 해시와 맞지 않는다: " ++ inv.paymentHash)

variable {d} {scope : String}

/-- Preimages of distinct attempts have distinct hashes. -/
theorem attempt_inj {a b : ℕ}
    (h : d.paymentHashOf (d.derivePreimage scope a) = d.paymentHashOf (d.derivePreimage scope b)) :
    a = b := by
  have hlabel : preimageLabel scope a = preimageLabel scope b := d.injective h
  unfold preimageLabel at hlabel
  have hnum : toString a = toString b := (String.append_right_inj _).mp hlabel
  refine toDigits_injective ?_
  simpa using congrArg String.toList hnum

/-- The loop passes the attempts before the one that was planned, and stops there. -/
theorem recoverFrom_eq {attempt : ℕ} (left from_ : ℕ) (hle : from_ ≤ attempt)
    (hlt : attempt < from_ + left) :
    d.recoverFrom scope (d.paymentHashOf (d.derivePreimage scope attempt)) left from_ =
      some (d.derivePreimage scope attempt, attempt) := by
  induction left generalizing from_ with
  | zero => omega
  | succ left ih =>
    rw [recoverFrom]
    by_cases heq : from_ = attempt
    · rw [heq, if_pos rfl]
    · rw [if_neg fun h => heq (attempt_inj h)]
      apply ih
      · omega
      · omega

theorem recoverPreimage_eq {attempt maxAttempts : ℕ} (h : attempt < maxAttempts) :
    d.recoverPreimage scope (d.paymentHashOf (d.derivePreimage scope attempt)) maxAttempts =
      some (d.derivePreimage scope attempt, attempt) :=
  recoverFrom_eq maxAttempts 0 (Nat.zero_le _) (by omega)

/-- A row that carries the hash of its label gives its preimage back. -/
theorem preimageOf_eq {inv : HoldRow} (hscope : scopeOf inv.purpose inv.orderId inv.party = .ok scope)
    (hhash : inv.paymentHash = d.paymentHashOf (d.derivePreimage scope inv.attempt)) :
    d.preimageOf inv = .ok (bytesToHex (d.derivePreimage scope inv.attempt)) := by
  simp only [preimageOf, hscope, hhash, if_true]

end SeedDerivation

/-! ## Labels of what the handlers accept -/

theorem slash_notMem_of_isOrderId {s : String} (h : isOrderId s = true) : '/' ∉ s.toList := by
  intro hmem
  have hall : s.toList.all isOrderIdChar = true := (Bool.and_eq_true_iff.mp h).2
  have hslash := List.all_eq_true.mp hall '/' hmem
  revert hslash
  decide

theorem slash_notMem_of_isHex64 {s : String} (h : isHex64 s = true) : '/' ∉ s.toList := by
  intro hmem
  have hall := (Bool.and_eq_true_iff.mp h).2
  have hslash := List.all_eq_true.mp hall '/' hmem
  revert hslash
  decide

/-- An order id and a pubkey always make a scope. -/
theorem exists_scopeOf (purpose : HoldPurpose) {orderId : OrderId} {party : Pubkey}
    (ho : isOrderId orderId = true) (hp : isHex64 party = true) :
    ∃ scope, scopeOf purpose orderId party = .ok scope := by
  unfold scopeOf preimageScope
  rw [if_neg]
  · exact ⟨_, rfl⟩
  · rintro (hslash | ⟨q, hq, hslash⟩)
    · exact slash_notMem_of_isOrderId ho hslash
    · split at hq
      · rw [← Option.some.inj hq] at hslash
        exact slash_notMem_of_isHex64 hp hslash
      · cases hq

/-- Two labels are the same when and only when they name the same. -/
theorem preimageLabel_eq_iff {purpose purpose' : HoldPurpose} {orderId orderId' : OrderId}
    {party party' : Pubkey} {attempt attempt' : ℕ} {scope scope' : String}
    (h : scopeOf purpose orderId party = .ok scope)
    (h' : scopeOf purpose' orderId' party' = .ok scope') :
    preimageLabel scope attempt = preimageLabel scope' attempt' ↔
      purpose = purpose' ∧ orderId = orderId' ∧ attempt = attempt' ∧
        (purpose.perParty = true → party = party') := by
  constructor
  · exact preimageLabel_inj h h'
  · rintro ⟨rfl, rfl, rfl, hparty⟩
    have hscope : scopeOf purpose orderId party = scopeOf purpose orderId party' := by
      unfold scopeOf
      by_cases hper : purpose.perParty = true
      · rw [hparty hper]
      · rw [if_neg hper, if_neg hper]
    rw [Except.ok.inj ((h.symm.trans hscope).trans h')]

/-- **Labels are unambiguous, and what was planned is recovered.**  Across all purposes, labels of
order ids and pubkeys agree only on the same purpose, order, attempt and, where it is named, person;
the hash of a planned row leads back to the very preimage it was derived from. -/
theorem preimage_recoverable {T E : Type} [OwnEffect E] (d : SeedDerivation) :
    (∀ (purpose purpose' : HoldPurpose) (orderId orderId' : OrderId) (party party' : Pubkey)
        (attempt attempt' : ℕ), isOrderId orderId = true → isOrderId orderId' = true →
        isHex64 party = true → isHex64 party' = true →
      ∃ scope scope', scopeOf purpose orderId party = .ok scope ∧
        scopeOf purpose' orderId' party' = .ok scope' ∧
        (preimageLabel scope attempt = preimageLabel scope' attempt' ↔
          purpose = purpose' ∧ orderId = orderId' ∧ attempt = attempt' ∧
            (purpose.perParty = true → party = party'))) ∧
    (∀ (now : ℤ) (p : HoldPlan) (db : Db T E) (row : HoldRow) (db' : Db T E),
        plan d.keys now p db = .ok (row, db') →
      ∃ scope, scopeOf p.purpose p.orderId p.party = .ok scope ∧
        row.paymentHash = d.paymentHashOf (d.derivePreimage scope row.attempt) ∧
        d.preimageOf row = .ok (bytesToHex (d.derivePreimage scope row.attempt)) ∧
        ∀ maxAttempts, row.attempt < maxAttempts →
          d.recoverPreimage scope row.paymentHash maxAttempts =
            some (d.derivePreimage scope row.attempt, row.attempt)) := by
  constructor
  · intro purpose purpose' orderId orderId' party party' attempt attempt' ho ho' hp hp'
    obtain ⟨scope, hscope⟩ := exists_scopeOf purpose ho hp
    obtain ⟨scope', hscope'⟩ := exists_scopeOf purpose' ho' hp'
    exact ⟨scope, scope', hscope, hscope', preimageLabel_eq_iff hscope hscope'⟩
  · intro now p db row db' h
    obtain ⟨hash, attempt, -, rfl, ⟨-, scope, hscope, hhash⟩, -, -⟩ := plan_spec h
    have hrow : (p.row hash attempt now).paymentHash =
        d.paymentHashOf (d.derivePreimage scope attempt) := hhash
    refine ⟨scope, hscope, hrow, SeedDerivation.preimageOf_eq hscope hrow, fun maxAttempts hlt => ?_⟩
    rw [hrow]
    exact SeedDerivation.recoverPreimage_eq hlt

/-! ### A derivation that keeps the text of the label -/

theorem toNat_ofNat_byte (b : UInt8) : (Char.ofNat b.toNat).toNat = b.toNat := by
  have hvalid : b.toNat.isValidChar := by
    have hlt := b.toNat_lt
    exact Or.inl (by omega)
  rw [Char.ofNat, dif_pos hvalid]
  rfl

theorem textHash_injective : Function.Injective fun label : String =>
    String.ofList (label.toByteArray.data.toList.map fun b => Char.ofNat b.toNat) := by
  have hchar : Function.Injective fun b : UInt8 => Char.ofNat b.toNat := by
    intro a b h
    apply UInt8.toNat_inj.mp
    rw [← toNat_ofNat_byte a, ← toNat_ofNat_byte b]
    exact congrArg Char.toNat h
  intro s t h
  have hlist := List.map_injective_iff.mpr hchar (String.ofList_injective h)
  exact String.toByteArray_inj.mp (ByteArray.ext (Array.toList_inj.mp hlist))

/-- The preimage is the label. -/
def textDerivation : SeedDerivation :=
  ⟨fun label => label.toByteArray.data.toList,
    fun bytes => String.ofList (bytes.map fun b => Char.ofNat b.toNat), textHash_injective⟩

/-- A sponsor's bond and a customer's, and the deposit of the first seller. -/
theorem preimage_recoverable_sample :
    (∃ scope scope', scopeOf .ocSponsorBond "ord1" (samplePubkey 'a') = .ok scope ∧
      scopeOf .ocCustomerBond "ord1" (samplePubkey 'b') = .ok scope' ∧
      (preimageLabel scope 0 = preimageLabel scope' 1 ↔
        HoldPurpose.ocSponsorBond = .ocCustomerBond ∧ "ord1" = "ord1" ∧ 0 = 1 ∧
          (HoldPurpose.ocSponsorBond.perParty = true → samplePubkey 'a' = samplePubkey 'b'))) ∧
    ∃ row db', plan textDerivation.keys 100
        ⟨.lnCustomerDeposit, "ord1", samplePubkey 'a', 500, 900, 1000⟩ LnDb.empty =
          .ok (row, db') ∧
      ∃ scope, scopeOf .lnCustomerDeposit "ord1" (samplePubkey 'a') = .ok scope ∧
        row.paymentHash =
          textDerivation.paymentHashOf (textDerivation.derivePreimage scope row.attempt) ∧
        textDerivation.preimageOf row =
          .ok (bytesToHex (textDerivation.derivePreimage scope row.attempt)) ∧
        ∀ maxAttempts, row.attempt < maxAttempts →
          textDerivation.recoverPreimage scope row.paymentHash maxAttempts =
            some (textDerivation.derivePreimage scope row.attempt, row.attempt) := by
  constructor
  · exact (preimage_recoverable (T := LnTables) (E := LnEffect) textDerivation).1 .ocSponsorBond
      .ocCustomerBond "ord1" "ord1" (samplePubkey 'a') (samplePubkey 'b') 0 1 (by decide) (by decide)
      samplePubkey_a samplePubkey_b
  · have hplan : (plan textDerivation.keys 100
        ⟨.lnCustomerDeposit, "ord1", samplePubkey 'a', 500, 900, 1000⟩ LnDb.empty).isOk = true := by
      decide +kernel
    cases h : plan textDerivation.keys 100
        ⟨.lnCustomerDeposit, "ord1", samplePubkey 'a', 500, 900, 1000⟩ LnDb.empty with
    | error e =>
      rw [h] at hplan
      cases hplan
    | ok r => exact ⟨r.1, r.2, rfl, (preimage_recoverable textDerivation).2 _ _ _ _ _ h⟩

end LnPay
