/-
# Publishing an order (`daemon/src/orders/publish.ts`, `shared/src/designated.ts`,
`daemon/src/onchain/effects.ts`, `daemon/src/ln/effects.ts`)

An open order is one event that anybody can read.  An order for a named sponsor is
a snapshot for each of its parties and operators: the same tags, sealed for that
one reader.

* `orderEvents` makes the events, `receive` is what a device makes of one,
* `receive_orderEvents` says which devices read the tags, and that they read them once,
* `ocOrder_read`, `lnOrder_read` say which order they then have.
-/
import LnPay.JsonText
import LnPay.LnOrderTags
import LnPay.LnFlow

namespace LnPay

/-! ## Sealing -/

/-- NIP-44 and JSON, as far as snapshots go.  A text is not sealed for a key that is no point of the
curve (`encrypt` throws); what is sealed is opened by the key it was sealed for, and by no other. -/
structure Sealing (K : Type) where
  publicKey : K → Pubkey
  encrypt : String → K → Pubkey → Option String
  decrypt : String → K → Pubkey → Option String
  stringify : List (List String) → String
  parse : String → Option (List (List String))
  parse_stringify : ∀ tags, parse (stringify tags) = some tags
  decrypt_encrypt : ∀ {text app reader sealed}, encrypt text app (publicKey reader) = some sealed →
    decrypt sealed reader (publicKey app) = some text
  decrypt_other : ∀ {text app recipient reader sealed}, encrypt text app recipient = some sealed →
    publicKey reader ≠ recipient → decrypt sealed reader (publicKey app) = none

namespace Sealing

/-- A text for a key: the key in hex, and the text behind it. -/
def sealFor (text : String) (recipient : Pubkey) : Option String :=
  if isHex64 recipient then some (String.ofList (recipient.toList ++ text.toList)) else none

/-- The text behind a key, when this is the key. -/
def openFor (text : String) (recipient : Pubkey) : Option String :=
  if text.toList.take 64 = recipient.toList then some (String.ofList (text.toList.drop 64)) else none

theorem length_of_isHex64 {s : String} (h : isHex64 s = true) : s.toList.length = 64 := by
  simp only [isHex64, Bool.and_eq_true, decide_eq_true_eq] at h
  exact h.1

theorem openFor_sealFor {text recipient reader : String} {sealed : String}
    (h : sealFor text recipient = some sealed) :
    openFor sealed reader = if reader = recipient then some text else none := by
  unfold sealFor at h
  split at h
  · rename_i hhex
    obtain rfl := Option.some.inj h
    have hlen := length_of_isHex64 hhex
    rw [openFor, String.toList_ofList, List.take_left' hlen, List.drop_left' hlen,
      String.ofList_toList]
    exact if_congr (String.toList_inj.trans eq_comm) rfl rfl
  · cases h

theorem openFor_self {text reader sealed : String}
    (h : sealFor text reader = some sealed) : openFor sealed reader = some text := by
  rw [openFor_sealFor h, if_pos rfl]

theorem openFor_other {text recipient reader sealed : String}
    (h : sealFor text recipient = some sealed) (hne : reader ≠ recipient) :
    openFor sealed reader = none := by
  rw [openFor_sealFor h, if_neg hne]

/-- Sealing where a key is its own public key: what is sealed is for the key it begins with. -/
def byPrefix : Sealing String where
  publicKey := id
  encrypt text _ recipient := sealFor text recipient
  decrypt text reader _ := openFor text reader
  stringify := JsonCodec.text.array.array.stringify
  parse := JsonCodec.text.array.array.parse
  parse_stringify := JsonCodec.parse_stringify JsonCodec.text.array.array
  decrypt_encrypt := openFor_self
  decrypt_other := openFor_other

end Sealing

/-- An event of an order, as it is sent. -/
structure OrderEvent (N : Type) where
  kind : ℕ
  pubkey : Pubkey
  createdAt : N
  tags : List (List String)
  content : String

/-- `ORDER_KIND`, as a number. -/
def orderKindNumber : ℕ := 38383

/-- `DESIGNATED_ORDER_KIND`. -/
def designatedOrderKind : ℕ := 33839

/-- What is published of an order. -/
structure OrderToSend (N : Type) where
  orderId : OrderId
  customer : Pubkey
  designatedSponsor : Option Pubkey
  trackTag : String
  tags : List (List String)
  retainUntil : N
  createdAt : N

section Snapshots

variable {K N : Type} (S : Sealing K) (js : Numbers N)

/-- `designatedOrderTemplate`, signed by the app; `none` when it cannot be sealed. -/
def designatedOrderEvent (app : K) (p : OrderToSend N) (recipient : Pubkey) : Option (OrderEvent N) :=
  (S.encrypt (S.stringify p.tags) app recipient).map fun content =>
    { kind := designatedOrderKind
      pubkey := S.publicKey app
      createdAt := p.createdAt
      tags := [["d", p.orderId ++ ":" ++ recipient],
        ["p", recipient],
        ["t", p.trackTag],
        ["expiration", js.text p.retainUntil]]
      content := content }

/-- The readers of an order for a named sponsor, each once. -/
def snapshotRecipients (operators : List Pubkey) (customer sponsor : Pubkey) : List Pubkey :=
  (customer :: sponsor :: operators).eraseDups

/-- `orderEvents`: the events, and the readers they could not be sealed for. -/
def orderEvents (app : K) (operators : List Pubkey) (p : OrderToSend N) :
    List (OrderEvent N) × List Pubkey :=
  match given p.designatedSponsor with
  | none => ([⟨orderKindNumber, S.publicKey app, p.createdAt, p.tags, ""⟩], [])
  | some sponsor =>
    let recipients := snapshotRecipients operators p.customer sponsor
    (recipients.filterMap (designatedOrderEvent S js app p),
      recipients.filter fun r => (designatedOrderEvent S js app p r).isNone)

/-- `designatedOrderFromPlaintext`. -/
def designatedOrderFromPlaintext (appPubkey : Pubkey) (e : OrderEvent N) (plaintext : String) :
    Option (OrderEvent N) :=
  if e.kind ≠ designatedOrderKind ∨ e.pubkey ≠ appPubkey then none
  else (S.parse plaintext).map fun tags => ⟨orderKindNumber, appPubkey, e.createdAt, tags, ""⟩

/-- `openDesignatedOrder`. -/
def openDesignatedOrder (appPubkey : Pubkey) (reader : K) (e : OrderEvent N) :
    Option (OrderEvent N) :=
  if e.kind ≠ designatedOrderKind ∨ e.pubkey ≠ appPubkey then none
  else (S.decrypt e.content reader appPubkey).bind (designatedOrderFromPlaintext S appPubkey e)

/-- What a device makes of an event: the app's open orders as they are, and snapshots opened. -/
def receive (appPubkey : Pubkey) (reader : K) (e : OrderEvent N) : Option (OrderEvent N) :=
  if e.kind = orderKindNumber ∧ e.pubkey = appPubkey then some e
  else openDesignatedOrder S appPubkey reader e

/-- Whether a device can read an order: anybody an open one, and an order for a named sponsor its
parties and the operators, as long as it can be sealed for them. -/
def mayRead (operators : List Pubkey) (p : OrderToSend N) (app reader : K) : Bool :=
  match given p.designatedSponsor with
  | none => true
  | some sponsor =>
    S.publicKey reader ∈ p.customer :: sponsor :: operators &&
      (S.encrypt (S.stringify p.tags) app (S.publicKey reader)).isSome

/-- A snapshot is opened by its reader alone. -/
theorem open_snapshot {app : K} (reader : K) {p : OrderToSend N} {recipient : Pubkey}
    {e : OrderEvent N} (h : designatedOrderEvent S js app p recipient = some e) :
    receive S (S.publicKey app) reader e =
      if S.publicKey reader = recipient then
        some ⟨orderKindNumber, S.publicKey app, p.createdAt, p.tags, ""⟩
      else none := by
  obtain ⟨content, hseal, rfl⟩ := Option.map_eq_some_iff.mp h
  have hkind : ¬ designatedOrderKind = orderKindNumber := by decide
  unfold receive openDesignatedOrder designatedOrderFromPlaintext
  by_cases hr : S.publicKey reader = recipient
  · have hopen : S.decrypt content reader (S.publicKey app) = some (S.stringify p.tags) :=
      S.decrypt_encrypt (hr ▸ hseal)
    simp [hkind, hr, hopen, S.parse_stringify]
  · have hopen : S.decrypt content reader (S.publicKey app) = none := S.decrypt_other hseal hr
    simp [hkind, hr, hopen]

/-- What one reader makes of the snapshots for some recipients, none of them twice. -/
theorem receive_snapshots {app reader : K} {p : OrderToSend N} {recipients : List Pubkey}
    (hnodup : recipients.Nodup) :
    (recipients.filterMap (designatedOrderEvent S js app p)).filterMap
        (receive S (S.publicKey app) reader) =
      if S.publicKey reader ∈ recipients ∧
          (S.encrypt (S.stringify p.tags) app (S.publicKey reader)).isSome = true then
        [⟨orderKindNumber, S.publicKey app, p.createdAt, p.tags, ""⟩]
      else [] := by
  induction recipients with
  | nil => simp
  | cons r rs ih =>
    obtain ⟨hr, hrs⟩ := List.nodup_cons.mp hnodup
    have hrest := ih hrs
    rw [List.filterMap_cons]
    cases he : designatedOrderEvent S js app p r with
    | none =>
      have hseal : S.encrypt (S.stringify p.tags) app r = none := Option.map_eq_none_iff.mp he
      rw [hrest]
      by_cases heq : S.publicKey reader = r
      · simp [heq, hseal]
      · simp [heq]
    | some e =>
      have hopen := open_snapshot S js reader he
      obtain ⟨content, hseal, -⟩ := Option.map_eq_some_iff.mp he
      rw [List.filterMap_cons, hopen, hrest]
      by_cases heq : S.publicKey reader = r
      · simp [heq, hseal, hr]
      · simp [heq]

theorem nodup_eraseDups (l : List Pubkey) : l.eraseDups.Nodup := by
  induction hn : l.length using Nat.strong_induction_on generalizing l with
  | _ n ih =>
    cases l with
    | nil => simp
    | cons a as =>
      have hle := List.length_filter_le (fun b => !b == a) as
      rw [List.eraseDups_cons, List.nodup_cons, List.mem_eraseDups, List.mem_filter]
      refine ⟨fun h => absurd h.2 (by simp), ih _ ?_ _ rfl⟩
      rw [← hn, List.length_cons]
      exact Nat.lt_succ_of_le hle

/-- **Which devices read an order**, and that each of them reads the tags once, as they were. -/
theorem receive_orderEvents (app reader : K) (operators : List Pubkey) (p : OrderToSend N) :
    (orderEvents S js app operators p).1.filterMap (receive S (S.publicKey app) reader) =
      if mayRead S operators p app reader then
        [⟨orderKindNumber, S.publicKey app, p.createdAt, p.tags, ""⟩]
      else [] := by
  unfold orderEvents mayRead
  cases hd : given p.designatedSponsor with
  | none => simp [receive]
  | some sponsor =>
    dsimp only
    rw [snapshotRecipients, receive_snapshots S js (nodup_eraseDups _)]
    simp only [List.mem_eraseDups, Bool.and_eq_true, decide_eq_true_eq]

/-! ## The two tracks -/

/-- The order of a row, with its numbers as numbers of the language. -/
def OnchainOrder.doc (num : ℚ → N) (o : OnchainOrder) : OrderDoc N :=
  let int (t : Option ℤ) : Option N := t.map fun t => num t
  { orderId := o.orderId
    state := o.state
    customerPubkey := o.customerPubkey
    sponsorPubkey := o.sponsorPubkey
    designatedSponsor := o.designatedSponsor
    amountSat := num o.amountSat
    reserveKrw := o.reserveKrw.map num
    createdAt := num o.createdAt
    updatedAt := num o.updatedAt
    expiration := num o.expiration
    network := o.network
    customerXonly := o.customerXonly
    sponsorXonly := o.sponsorXonly
    adminXonly := o.adminXonly
    escrowAddress := o.escrowAddress
    timelockBlocks := o.timelockBlocks.map num
    fundingDeadline := int o.fundingDeadline
    fundingOutpoint := o.fundingOutpoint
    fundingConfs := o.fundingConfs.map fun n => num n
    fundedAt := int o.fundedAt
    presignDeadline := int o.presignDeadline
    priceKrw := int o.priceKrw
    payoutSat := o.payoutSat.map num
    releaseFeeSat := o.releaseFeeSat.map num
    presignedAt := int o.presignedAt
    accountDeadline := int o.accountDeadline
    accountSentAt := int o.accountSentAt
    krwDeadline := int o.krwDeadline
    remittedAt := int o.remittedAt
    cosignDeadline := int o.cosignDeadline
    accountDisputedAt := int o.accountDisputedAt
    disputedAt := int o.disputedAt
    settlementKind := o.settlementKind
    settlementFeeSat := o.settlementFeeSat.map num
    decidedAt := int o.decidedAt
    settlementTxid := o.settlementTxid
    settlingAt := int o.settlingAt
    customerDepositHash := o.customerDepositHash
    sponsorDepositHash := o.sponsorDepositHash }

/-- The tags of an order with the time until which relays keep it in the place of its expiration. -/
def retainedTags (tags : List (List String)) (expiration : N) : List (List String) :=
  tags.map fun t => if t.head? = some "expiration" then ["expiration", js.text expiration] else t

/-- `createOcPublishExecutor`: what it sends of an order. -/
def ocOrderToSend (o : OrderDoc N) (clientTag : String) (appUrl : Option String)
    (expiration createdAt : N) : OrderToSend N :=
  { orderId := o.orderId
    customer := o.customerPubkey
    designatedSponsor := o.designatedSponsor
    trackTag := clientTag
    tags := retainedTags js (onchainOrderTags js o clientTag appUrl) expiration
    retainUntil := expiration
    createdAt := createdAt }

/-- The source's words for the reasons. -/
def LnCloseReason.text : LnCloseReason → String
  | .paid => "paid"
  | .sponsorWins => "sponsor_wins"
  | .customerWins => "customer_wins"
  | .adminClosed => "admin_closed"
  | .cancelCustomer => "cancel:customer"
  | .cancelCustomerAfterClaim => "cancel:customer-after-claim"
  | .cancelUnpaidEscrow => "cancel:unpaid-escrow"
  | .expiredNoSponsor => "expired:no-sponsor"
  | .expiredNotApproved => "expired:not-approved"
  | .expiredUnpaidEscrow => "expired:unpaid-escrow"
  | .expiredNoInvoice => "expired:no-invoice"
  | .expiredNoAccount => "expired:no-account"
  | .expiredNoRemit => "expired:no-remit"

/-- `sponsorDepositPending`: the claim waits for its deposit. -/
def sponsorDepositPending (order : LnOrderRow) (db : LnDb) : Bool :=
  match given order.sponsor with
  | none => false
  | some sponsor =>
    order.state = .claimed && (given order.sponsorDepositHash).isNone &&
      ((currentHold .lnSponsorDeposit order.orderId sponsor db).any isLiveHold ||
        LnCtx.sponsorDepositRequired order db)

/-- The fields of a row that `buildOrderEvents` writes.  The amount and the invoice of the escrow are
shown together. -/
def lnOrderFields (num : ℤ → N) (order : LnOrderRow) (db : LnDb) : LnOrderFields N :=
  { orderId := order.orderId
    state := order.state
    customerPubkey := order.customer
    sponsorPubkey := order.sponsor
    price := num order.price
    deadline := num order.deadline
    bolt11 := order.escrowBolt11
    payoutSat := if (given order.escrowBolt11).isSome then order.payoutSat.map fun n => num n else none
    sponsorInvoice := order.sponsorInvoice
    disbursed := order.disbursed
    depositPaymentHash := order.customerDepositHash
    sponsorDepositPaymentHash := order.sponsorDepositHash
    sponsorDepositPending := sponsorDepositPending order db
    closeReason := order.closeReason.map LnCloseReason.text
    invoiceDeadline := order.invoiceDeadline.map num
    designatedSponsor := order.designatedSponsor }

/-- `buildOrderEvents`: what it sends of a row. -/
def lnOrderToSend (o : LnOrderFields N) (clientTag : String) (appUrl : Option String)
    (retainUntil createdAt : N) : OrderToSend N :=
  { orderId := o.orderId
    customer := o.customerPubkey
    designatedSponsor := o.designatedSponsor
    trackTag := clientTag
    tags := lnOrderTags js o clientTag retainUntil appUrl
    retainUntil := retainUntil
    createdAt := createdAt }

theorem tagValue_cons_eq (t : List String) (tags : List (List String)) (key : String) :
    tagValue (t :: tags) key = if t.head? = some key then t[1]? else tagValue tags key := by
  by_cases h : t.head? = some key <;> simp [tagValue, h]

/-- Only the expiration is read differently. -/
theorem tagValue_retainedTags (tags : List (List String)) (expiration : N) (key : String) :
    tagValue (retainedTags js tags expiration) key =
      if key = "expiration" ∧ ∃ t ∈ tags, t.head? = some "expiration" then some (js.text expiration)
      else tagValue tags key := by
  induction tags with
  | nil => simp [retainedTags]
  | cons t tags ih =>
    have hcons : retainedTags js (t :: tags) expiration =
        (if t.head? = some "expiration" then ["expiration", js.text expiration] else t) ::
          retainedTags js tags expiration := rfl
    rw [hcons, tagValue_cons_eq, tagValue_cons_eq, ih]
    by_cases ht : t.head? = some "expiration"
    · rw [if_pos ht]
      by_cases hk : key = "expiration"
      · simp [hk, ht]
      · have hk' : ¬ "expiration" = key := Ne.symm hk
        simp [hk, hk', ht]
    · rw [if_neg ht]
      by_cases hk : key = "expiration"
      · simp [hk, ht]
      · simp [hk]

/-- An order is read from the values of its names alone. -/
theorem parseOnchainOrder_congr {tags tags' : List (List String)} (createdAt : N) (clientTag : String)
    (h : ∀ key ∉ ["k", "f", "s", "amt", "fa", "pm", "premium", "layer", "expires_at", "y", "z",
      "source"], tagValue tags key = tagValue tags' key) :
    OrderDoc.parseOnchainOrder js tags createdAt clientTag = OrderDoc.parseOnchainOrder js tags' createdAt clientTag := by
  simp [OrderDoc.parseOnchainOrder, Numbers.readNum, h]

/-- What comes back of the tags that are sent. -/
theorem parseOnchainOrder_sent (o : OrderDoc N) (clientTag : String) (appUrl : Option String)
    (expiration createdAt : N) :
    OrderDoc.parseOnchainOrder js (retainedTags js (onchainOrderTags js o clientTag appUrl) expiration)
        createdAt clientTag =
      if o.Readable js then some ({ o with expiration := expiration }.published js createdAt)
      else none := by
  have htag : ∃ t ∈ onchainOrderTags js o clientTag appUrl, t.head? = some "expiration" :=
    ⟨["expiration", js.text o.expiration], by simp [onchainOrderTags_eq], rfl⟩
  have hsame : OrderDoc.parseOnchainOrder js (retainedTags js (onchainOrderTags js o clientTag appUrl) expiration)
      createdAt clientTag =
      OrderDoc.parseOnchainOrder js (onchainOrderTags js { o with expiration := expiration } clientTag appUrl)
        createdAt clientTag :=
    parseOnchainOrder_congr js createdAt clientTag (by
      intro key hkey
      rw [tagValue_retainedTags, tagValue_onchainOrderTags js o _ _ _ hkey,
        tagValue_onchainOrderTags js _ _ _ _ hkey]
      by_cases hk : key = "expiration"
      · rw [if_pos ⟨hk, htag⟩, hk]
        rfl
      · have hk' : ¬ "expiration" = key := Ne.symm hk
        rw [if_neg fun h => hk h.1]
        simp only [if_neg hk']
        rfl)
  rw [hsame, parseOnchainOrder_tags]
  by_cases hr : o.Readable js
  · rw [if_pos hr, if_pos ⟨hr.orderId, hr.customer, hr.amount, hr.keys⟩]
  · rw [if_neg hr, if_neg fun h => hr ⟨h.orderId, h.customer, h.amount, h.keys⟩]

/-- **What a device has of an order of the daemon**: exactly the devices that may read it have it, as
it is on record, with the time until which it is kept for its expiration. -/
theorem ocOrder_read (num : ℚ → N) (app reader : K) (operators : List Pubkey) (row : OnchainOrder)
    (clientTag : String) (appUrl : Option String) (expiration createdAt : N) :
    ((orderEvents S js app operators
        (ocOrderToSend js (row.doc num) clientTag appUrl expiration createdAt)).1.filterMap
          (receive S (S.publicKey app) reader)).filterMap
        (fun e => OrderDoc.parseOnchainOrder js e.tags e.createdAt clientTag) =
      if mayRead S operators (ocOrderToSend js (row.doc num) clientTag appUrl expiration createdAt) app
          reader = true ∧ (row.doc num).Readable js then
        [{ row.doc num with expiration := expiration }.published js createdAt]
      else [] := by
  have hparse := parseOnchainOrder_sent js (row.doc num) clientTag appUrl expiration createdAt
  rw [receive_orderEvents]
  by_cases hread : mayRead S operators
      (ocOrderToSend js (row.doc num) clientTag appUrl expiration createdAt) app reader = true
  · rw [if_pos hread]
    by_cases hr : (row.doc num).Readable js
    · rw [if_pos hr] at hparse
      rw [if_pos ⟨hread, hr⟩, List.filterMap_cons]
      simp only [ocOrderToSend, hparse, List.filterMap_nil]
    · rw [if_neg hr] at hparse
      rw [if_neg fun h => hr h.2, List.filterMap_cons]
      simp only [ocOrderToSend, hparse, List.filterMap_nil]
  · rw [if_neg hread, if_neg fun h => hread h.1]
    rfl

/-- **What a device has of a Lightning order of the daemon**, likewise, when the order has an id. -/
theorem lnOrder_read (num : ℤ → N) (app reader : K) (operators : List Pubkey) (row : LnOrderRow)
    (db : LnDb) (clientTag : String) (appUrl : Option String) (retainUntil createdAt : N) :
    ((orderEvents S js app operators
        (lnOrderToSend js (lnOrderFields num row db) clientTag appUrl retainUntil createdAt)).1.filterMap
          (receive S (S.publicKey app) reader)).filterMap
        (fun e => parseLnOrder js (S.publicKey app) e.pubkey e.tags e.createdAt) =
      if mayRead S operators
          (lnOrderToSend js (lnOrderFields num row db) clientTag appUrl retainUntil createdAt) app
          reader = true ∧ row.orderId ≠ "" then
        [(lnOrderFields num row db).published js retainUntil createdAt]
      else [] := by
  set o := lnOrderFields num row db
  have hparse := parseLnOrder_tags js o (S.publicKey app) clientTag retainUntil createdAt appUrl
  rw [receive_orderEvents]
  by_cases hread : mayRead S operators (lnOrderToSend js o clientTag appUrl retainUntil createdAt) app
      reader = true
  · rw [if_pos hread]
    by_cases hid : row.orderId = ""
    · rw [if_pos (show o.orderId = "" from hid)] at hparse
      rw [if_neg fun h => h.2 hid, List.filterMap_cons]
      simp only [lnOrderToSend, hparse, List.filterMap_nil]
    · rw [if_neg (show ¬ o.orderId = "" from hid)] at hparse
      rw [if_pos ⟨hread, hid⟩, List.filterMap_cons]
      simp only [lnOrderToSend, hparse, List.filterMap_nil]
  · rw [if_neg hread, if_neg fun h => hread h.1]
    rfl

/-! ### Two orders that are read -/

/-- A key of one digit. -/
def sampleKey (digit : Char) : Pubkey := String.ofList (List.replicate 64 digit)

/-- An order of the customer `a` for the sponsor `b`. -/
def sampleOcRow : OnchainOrder where
  orderId := "order"
  state := .funded
  customerPubkey := sampleKey 'a'
  designatedSponsor := some (sampleKey 'b')
  amountSat := 50000
  createdAt := 1
  updatedAt := 2
  expiration := 1700000000
  network := .signet
  priceKrw := some 71000
  fundedAt := some 1699990000

/-- Its sponsor has it, and a stranger has nothing. -/
theorem ocOrder_read_sample :
    ((orderEvents Sealing.byPrefix .ofRat (sampleKey 'd') [sampleKey 'c']
        (ocOrderToSend .ofRat (sampleOcRow.doc some) "oc" none (some 5) (some 6))).1.filterMap
          (receive Sealing.byPrefix (sampleKey 'd') (sampleKey 'b'))).filterMap
        (fun e => OrderDoc.parseOnchainOrder .ofRat e.tags e.createdAt "oc") =
      [{ sampleOcRow.doc some with expiration := some 5 }.published .ofRat (some 6)] ∧
    ((orderEvents Sealing.byPrefix .ofRat (sampleKey 'd') [sampleKey 'c']
        (ocOrderToSend .ofRat (sampleOcRow.doc some) "oc" none (some 5) (some 6))).1.filterMap
          (receive Sealing.byPrefix (sampleKey 'd') (sampleKey 'e'))).filterMap
        (fun e => OrderDoc.parseOnchainOrder .ofRat e.tags e.createdAt "oc") = [] := by
  have hsponsor := ocOrder_read Sealing.byPrefix .ofRat some (sampleKey 'd') (sampleKey 'b')
    [sampleKey 'c'] sampleOcRow "oc" none (some 5) (some 6)
  have hstranger := ocOrder_read Sealing.byPrefix .ofRat some (sampleKey 'd') (sampleKey 'e')
    [sampleKey 'c'] sampleOcRow "oc" none (some 5) (some 6)
  rw [if_pos (by decide +kernel)] at hsponsor
  rw [if_neg (by decide +kernel)] at hstranger
  exact ⟨hsponsor, hstranger⟩

/-- An open order of the customer `a`, claimed by `b`. -/
def sampleLnRow : LnOrderRow where
  orderId := "order"
  state := .claimed
  customer := sampleKey 'a'
  sponsor := some (sampleKey 'b')
  price := 30000
  deadline := 1700000000
  payoutSat := none
  escrowHash := none
  escrowBolt11 := none
  escrowSettled := false
  sponsorInvoice := none
  disbursed := false
  payoutError := none
  customerDepositHash := none
  sponsorDepositHash := none
  pendingClose := none
  closeReason := none
  claimedAt := some 1699990000
  accountSentAt := none
  accountCommitment := none
  remittedAt := none
  invoiceDeadline := none
  designatedSponsor := none
  createdAt := 1
  updatedAt := 2
  version := 2

/-- The database of a new installation. -/
def sampleLnDb : LnDb := ⟨.empty, [], ⟨.empty, .empty, defaultLnSettings, none⟩⟩

/-- Anybody has it. -/
theorem lnOrder_read_sample :
    ((orderEvents Sealing.byPrefix .ofRat (sampleKey 'd') [sampleKey 'c']
        (lnOrderToSend .ofRat (lnOrderFields (fun n => some (n : ℚ)) sampleLnRow sampleLnDb) "ln" none (some 5)
          (some 6))).1.filterMap
          (receive Sealing.byPrefix (sampleKey 'd') (sampleKey 'e'))).filterMap
        (fun e => parseLnOrder .ofRat (sampleKey 'd') e.pubkey e.tags e.createdAt) =
      [(lnOrderFields (fun n => some (n : ℚ)) sampleLnRow sampleLnDb).published .ofRat (some 5) (some 6)] := by
  have h := lnOrder_read Sealing.byPrefix .ofRat (fun n => some (n : ℚ)) (sampleKey 'd')
    (sampleKey 'e') [sampleKey 'c'] sampleLnRow sampleLnDb "ln" none (some 5) (some 6)
  rw [if_pos ⟨rfl, by decide⟩] at h
  exact h

end Snapshots

end LnPay
