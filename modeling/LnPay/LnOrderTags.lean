/-
# The tags of a Lightning order (`shared/src/ln/order.ts`)

The reader of this track is lenient: a deadline that is not there is one that
has passed, a number that is not positive is not there, and the state is
whatever the tag says.  So every order with an id is read, and the theorem says
which of its fields come back changed.
-/
import LnPay.OrderTags
import LnPay.LnStore
import LnPay.ClientEvents

namespace LnPay

variable {N : Type}

/-- The source's words for the states. -/
def OrderState.text : OrderState → String
  | .requested => "requested"
  | .claimed => "claimed"
  | .verified => "verified"
  | .escrowed => "escrowed"
  | .invoiced => "invoiced"
  | .remitted => "remitted"
  | .paid => "paid"
  | .cancelled => "cancelled"
  | .sponsorWins => "sponsor_wins"
  | .customerWins => "customer_wins"
  | .adminClosed => "admin_closed"
  | .expired => "expired"

/-- `LN_NIP69_STATUS`. -/
def OrderState.nip69Status : OrderState → Nip69Status
  | .requested => .pending
  | .claimed | .verified | .escrowed | .invoiced | .remitted => .inProgress
  | .paid | .sponsorWins => .success
  | .customerWins | .cancelled | .adminClosed => .canceled
  | .expired => .expired

/-- `LnOrderFields`. -/
structure LnOrderFields (N : Type) where
  orderId : String
  state : OrderState
  customerPubkey : Pubkey
  sponsorPubkey : Option Pubkey
  price : N
  deadline : N
  bolt11 : Option String
  payoutSat : Option N
  sponsorInvoice : Option String
  disbursed : Bool
  depositPaymentHash : Option String
  sponsorDepositPaymentHash : Option String
  sponsorDepositPending : Bool
  closeReason : Option String
  invoiceDeadline : Option N
  designatedSponsor : Option Pubkey

/-- `Order`, as it is read. -/
structure LnOrderDoc (N : Type) where
  orderId : String
  state : String
  customerPubkey : Pubkey
  sponsorPubkey : Option Pubkey
  bolt11 : Option String
  disbursed : Bool
  depositPaymentHash : Option String
  sponsorDepositPaymentHash : Option String
  sponsorDepositPending : Bool
  payoutSat : Option N
  sponsorInvoice : Option String
  closeReason : Option String
  invoiceDeadline : Option N
  designatedSponsor : Option Pubkey
  price : N
  createdAt : N
  updatedAt : N
  expiration : N
  retainUntil : Option N

/-- Neither zero nor `NaN`. -/
def Numbers.isTruthy (js : Numbers N) (n : N) : Bool :=
  match js.value n with
  | none => false
  | some v => v ≠ .finite 0

theorem Numbers.isTruthy_of_isPositive (js : Numbers N) {n : N} (h : js.isPositive n = true) :
    js.isTruthy n = true := by
  unfold Numbers.isPositive at h
  unfold Numbers.isTruthy
  cases hv : js.value n with
  | none => simp [hv] at h
  | some v =>
    cases v with
    | negInf => simp [hv] at h
    | posInf => rfl
    | finite q =>
      rw [hv] at h
      have hq : 0 < q := of_decide_eq_true h
      simp [ne_of_gt hq]

section Codec

variable (js : Numbers N)

/-- The fields that are written when they are there, in the source's order. -/
def LnOrderFields.fields (o : LnOrderFields N) : List (String × Option String) :=
  let str (value : Option String) := given value
  let num (value : Option N) := (value.filter fun n => js.isTruthy n).map js.text
  [("sponsor", str o.sponsorPubkey),
    ("bolt11", str o.bolt11),
    ("payout", num o.payoutSat),
    ("sponsor-invoice", str o.sponsorInvoice),
    ("disbursed", if o.disbursed then some "true" else none),
    ("customer-deposit-payment-hash", str o.depositPaymentHash),
    ("sponsor-deposit-payment-hash", str o.sponsorDepositPaymentHash),
    ("sponsor-deposit", if o.sponsorDepositPending then some "pending" else none),
    ("close-reason", str o.closeReason),
    ("invoice-deadline", num o.invoiceDeadline)]

/-- The tags behind the fields, for an order of either sort. -/
def LnOrderFields.tail (o : LnOrderFields N) (appUrl : Option String) : List (List String) :=
  match given o.designatedSponsor with
  | some sponsor => [["designated-sponsor", sponsor]]
  | none => nip69Tags js {
      status := o.state.nip69Status
      amountSat := o.payoutSat.getD js.zero
      fiatKrw := o.price
      network := "mainnet"
      layer := "lightning"
      expiresAt := o.deadline
      source := (given appUrl).map fun url => orderLink url .ln o.orderId }

/-- `lnOrderTags`. -/
def lnOrderTags (o : LnOrderFields N) (clientTag : String) (retainUntil : N)
    (appUrl : Option String) : List (List String) :=
  [["d", o.orderId],
    ["t", clientTag],
    ["protocol", toString protocolVersion],
    ["state", o.state.text],
    ["price", js.text o.price, "KRW"],
    ["customer", o.customerPubkey],
    ["deadline", js.text o.deadline],
    ["expiration", js.text retainUntil]] ++ (tagsOf (o.fields js) ++ o.tail js appUrl)

/-- `Number(tag(event, name) ?? 0)`. -/
def Numbers.readOrZero (js : Numbers N) (tags : List (List String)) (name : String) : N :=
  ((tagValue tags name).map js.number).getD js.zero

/-- `parseLnOrderEvent`, with all that it reads. -/
def parseLnOrder (appPubkey pubkey : Pubkey) (tags : List (List String)) (createdAt : N) :
    Option (LnOrderDoc N) :=
  if pubkey ≠ appPubkey then none
  else (given (tagValue tags "d")).map fun orderId =>
    { orderId := orderId
      state := (tagValue tags "state").getD "requested"
      customerPubkey := (tagValue tags "customer").getD ""
      sponsorPubkey := given (tagValue tags "sponsor")
      bolt11 := given (tagValue tags "bolt11")
      disbursed := tagValue tags "disbursed" = some "true"
      depositPaymentHash := given (tagValue tags "customer-deposit-payment-hash")
      sponsorDepositPaymentHash := given (tagValue tags "sponsor-deposit-payment-hash")
      sponsorDepositPending := tagValue tags "sponsor-deposit" = some "pending"
      payoutSat := (some (js.readOrZero tags "payout")).filter fun n => js.isPositive n
      sponsorInvoice := given (tagValue tags "sponsor-invoice")
      closeReason := given (tagValue tags "close-reason")
      invoiceDeadline := (some (js.readOrZero tags "invoice-deadline")).filter fun n =>
        js.isInteger n && js.isPositive n
      designatedSponsor := given (tagValue tags "designated-sponsor")
      price := js.readOrZero tags "price"
      createdAt := createdAt
      updatedAt := createdAt
      expiration := if js.isFinite (js.readOrZero tags "deadline") then js.readOrZero tags "deadline"
        else js.zero
      retainUntil := (some (js.readOrZero tags "expiration")).filter fun n => js.isPositive n }

/-- What a device makes of an order: an empty text and a number that is not positive are not there,
and a deadline that is not finite has passed. -/
def LnOrderFields.published (o : LnOrderFields N) (retainUntil createdAt : N) : LnOrderDoc N :=
  { orderId := o.orderId
    state := o.state.text
    customerPubkey := o.customerPubkey
    sponsorPubkey := given o.sponsorPubkey
    bolt11 := given o.bolt11
    disbursed := o.disbursed
    depositPaymentHash := given o.depositPaymentHash
    sponsorDepositPaymentHash := given o.sponsorDepositPaymentHash
    sponsorDepositPending := o.sponsorDepositPending
    payoutSat := o.payoutSat.filter fun n => js.isPositive n
    sponsorInvoice := given o.sponsorInvoice
    closeReason := given o.closeReason
    invoiceDeadline := o.invoiceDeadline.filter fun n => js.isInteger n && js.isPositive n
    designatedSponsor := given o.designatedSponsor
    price := o.price
    createdAt := createdAt
    updatedAt := createdAt
    expiration := if js.isFinite o.deadline then o.deadline else js.zero
    retainUntil := (some retainUntil).filter fun n => js.isPositive n }

/-- Where a name is read from. -/
theorem tagValue_lnOrderTags (o : LnOrderFields N) (clientTag : String) (retainUntil : N)
    (appUrl : Option String) (key : String) (hkey : key ∉ ["k", "f", "s", "amt", "fa", "pm", "premium",
      "network", "layer", "expires_at", "y", "z", "source"]) :
    tagValue (lnOrderTags js o clientTag retainUntil appUrl) key =
      if "d" = key then some o.orderId
      else if "t" = key then some clientTag
      else if "protocol" = key then some (toString protocolVersion)
      else if "state" = key then some o.state.text
      else if "price" = key then some (js.text o.price)
      else if "customer" = key then some o.customerPubkey
      else if "deadline" = key then some (js.text o.deadline)
      else if "expiration" = key then some (js.text retainUntil)
      else (((o.fields js).lookup key).bind id).or
        (if key = "designated-sponsor" then given o.designatedSponsor else none) := by
  have hnodup : ((o.fields js).map Prod.fst).Nodup := by
    simp [LnOrderFields.fields]
  have htail : tagValue (o.tail js appUrl) key =
      if key = "designated-sponsor" then given o.designatedSponsor else none := by
    unfold LnOrderFields.tail
    cases hd : given o.designatedSponsor with
    | none => 
      rw [tagValue_nip69Tags js _ key hkey, ite_self]
    | some sponsor =>
      rw [tagValue_cons]
      simp only [eq_comm]
      rfl
  unfold lnOrderTags
  simp only [List.cons_append, List.nil_append, tagValue_cons, tagValue_tagsOf _ _ _ hnodup, htail]

/-- A number that is only used when it is positive comes back, though zero and `NaN` are not
written. -/
theorem read_positive (v : Option N) (p : N → Bool) (hp : ∀ n, p n = true → js.isPositive n = true) :
    (some ((Option.map (js.number ∘ js.text) (v.filter fun n => js.isTruthy n)).getD js.zero)).filter p =
      v.filter p := by
  have hzero : p js.zero = false := by
    cases hz : p js.zero with
    | false => rfl
    | true => exact absurd (hp _ hz) (by simp [Numbers.isPositive, js.value_zero])
  rw [map_number_text]
  cases v with
  | none =>
    rw [Option.filter_none, Option.getD_none, Option.filter_some, hzero, Option.filter_none,
      if_neg Bool.false_ne_true]
  | some n =>
    by_cases ht : js.isTruthy n = true
    · have hkeep : (some n).filter (fun n => js.isTruthy n) = some n := Option.filter_some_pos ht
      rw [hkeep, Option.getD_some]
    · have hn : p n = false := by
        cases hn : p n with
        | false => rfl
        | true => exact absurd (js.isTruthy_of_isPositive (hp n hn)) ht
      have hdrop : (some n).filter (fun n => js.isTruthy n) = none :=
        Option.filter_some_neg (Bool.not_eq_true _ ▸ ht)
      rw [hdrop, Option.getD_none, Option.filter_some_neg hzero, Option.filter_some_neg hn]

/-- **What comes back**: every order of the app that has an id, with all its texts that are not empty
and all its numbers that make sense. -/
theorem parseLnOrder_tags (o : LnOrderFields N) (appPubkey : Pubkey) (clientTag : String)
    (retainUntil createdAt : N) (appUrl : Option String) :
    parseLnOrder js appPubkey appPubkey (lnOrderTags js o clientTag retainUntil appUrl) createdAt =
      if o.orderId = "" then none else some (o.published js retainUntil createdAt) := by
  by_cases hid : o.orderId = ""
  · simp [parseLnOrder, tagValue_lnOrderTags, hid, given]
  · have hd : given (some o.orderId) = some o.orderId := by simp [given, hid]
    rw [if_neg hid]
    simp [parseLnOrder, tagValue_lnOrderTags, LnOrderFields.fields, List.lookup_cons, hd,
      Numbers.readOrZero, js.number_text, LnOrderFields.published]
    exact ⟨read_positive js o.payoutSat _ fun n h => h,
      read_positive js o.invoiceDeadline _ fun n h => (Bool.and_eq_true_iff.mp h).2⟩

end Codec

end LnPay
