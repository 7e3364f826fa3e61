/-
# The tags of an on-chain order (`shared/src/onchain/order.ts`, `shared/src/nip69.ts`)

The daemon writes an order as tags and every device reads the order back from
them.  The tags are an open format: what a device is handed was made by
somebody else, and a text or a number of it can be anything.

* `Numbers` is what `String(n)` and `Number(s)` do,
* `onchainOrderTags` and `parseOnchainOrder` are the two directions,
* `parseOnchainOrder_tags` says exactly what comes back.
-/
import LnPay.Explorer
import LnPay.JsonText
import LnPay.Routing

namespace LnPay

/-! ## Numbers and tags -/

/-- The numbers of the language, with one zero and one `NaN`; the value of `NaN` is `none`.  Writing a
number down and reading it gives it back. -/
structure Numbers (N : Type) where
  text : N → String
  number : String → N
  value : N → Option Explorer.Num
  zero : N
  number_text : ∀ n, number (text n) = n
  value_zero : value zero = some (.finite 0)

variable {N : Type}

namespace Numbers

/-- `Number.isFinite`. -/
def isFinite (js : Numbers N) (n : N) : Bool :=
  match js.value n with
  | some (.finite _) => true
  | _ => false

/-- `Number.isInteger`. -/
def isInteger (js : Numbers N) (n : N) : Bool :=
  match js.value n with
  | some (.finite q) => q.isInt
  | _ => false

/-- `n > 0`. -/
def isPositive (js : Numbers N) (n : N) : Bool :=
  match js.value n with
  | some (.finite q) => 0 < q
  | some .posInf => true
  | _ => false

/-- `readNum`. -/
def readNum (js : Numbers N) (tags : List (List String)) (name : String) : Option N :=
  ((tagValue tags name).map js.number).filter fun n => js.isFinite n

/-- What is read is finite. -/
theorem isFinite_of_readNum {js : Numbers N} {tags : List (List String)} {name : String} {n : N}
    (h : js.readNum tags name = some n) : js.isFinite n = true :=
  (Option.filter_eq_some_iff.mp h).2

theorem number_text_ofRat (n : Option ℚ) :
    JsonCodec.rat.parse ((n.map JsonCodec.rat.stringify).getD "NaN") = n := by
  cases n with
  | none => decide
  | some q => exact JsonCodec.parse_stringify JsonCodec.rat q

/-- The finite numbers, written exactly, and one `NaN`. -/
def ofRat : Numbers (Option ℚ) where
  text n := (n.map JsonCodec.rat.stringify).getD "NaN"
  number := JsonCodec.rat.parse
  value n := n.map .finite
  zero := some 0
  number_text := number_text_ofRat
  value_zero := rfl

end Numbers

/-- The tags of some fields: one for each field that has a text. -/
def tagsOf (fields : List (String × Option String)) : List (List String) :=
  fields.filterMap fun f => f.2.map fun text => [f.1, text]

theorem tagValue_cons (name text : String) (more : List String) (tags : List (List String))
    (key : String) :
    tagValue ((name :: text :: more) :: tags) key = if name = key then some text else tagValue tags key := by
  by_cases h : name = key <;> simp [tagValue, h]

/-- What is read from the tags of some fields with more tags behind them. -/
theorem tagValue_tagsOf (fields : List (String × Option String)) (tags : List (List String))
    (key : String) (hnodup : (fields.map Prod.fst).Nodup) :
    tagValue (tagsOf fields ++ tags) key =
      ((fields.lookup key).bind id).or (tagValue tags key) := by
  induction fields with
  | nil => simp [tagsOf]
  | cons f fields ih =>
    obtain ⟨name, text⟩ := f
    obtain ⟨hname, hrest⟩ := List.nodup_cons.mp hnodup
    have htags : tagsOf ((name, text) :: fields) =
        (text.map fun t => [name, t]).toList ++ tagsOf fields := by
      cases text <;> simp [tagsOf]
    by_cases hkey : name = key
    · subst hkey
      have hlater : fields.lookup name = none := by
        refine List.lookup_eq_none_iff.mpr fun p hp => ?_
        rw [bne_iff_ne]
        intro heq
        exact hname (List.mem_map.mpr ⟨p, hp, heq.symm⟩)
      have hself : ((name, text) :: fields).lookup name = some text := by simp
      rw [htags, hself]
      cases text with
      | none =>
        have := ih hrest
        simp only [hlater] at this
        simpa using this
      | some t => simp [tagValue_cons]
    · have hother : ((name, text) :: fields).lookup key = fields.lookup key := by
        simp [List.lookup_cons, beq_eq_false_iff_ne.mpr (Ne.symm hkey)]
      rw [htags, hother, ← ih hrest]
      cases text with
      | none => simp
      | some t => simp [tagValue_cons, hkey]

/-! ## NIP-69 -/

/-- `Nip69Status`. -/
inductive Nip69Status
  | pending
  | canceled
  | inProgress
  | success
  | expired
  deriving DecidableEq, Repr

/-- The words of NIP-69. -/
def Nip69Status.text : Nip69Status → String
  | .pending => "pending"
  | .canceled => "canceled"
  | .inProgress => "in-progress"
  | .success => "success"
  | .expired => "expired"

/-- `Nip69Order`. -/
structure Nip69Order (N : Type) where
  status : Nip69Status
  amountSat : N
  fiatKrw : N
  network : String
  layer : String
  expiresAt : N
  source : Option String

/-- `nip69Tags`. -/
def nip69Tags (js : Numbers N) (o : Nip69Order N) : List (List String) :=
  [["k", "sell"],
    ["f", "KRW"],
    ["s", o.status.text],
    ["amt", js.text o.amountSat],
    ["fa", js.text o.fiatKrw],
    ["pm", "bank transfer"],
    ["premium", "0"],
    ["network", o.network],
    ["layer", o.layer],
    ["expires_at", js.text o.expiresAt],
    ["y", "pairbuy"],
    ["z", "order"]] ++
  tagsOf [("source", given o.source)]

/-- The tags of NIP-69 have their own names. -/
theorem tagValue_nip69Tags (js : Numbers N) (o : Nip69Order N) (key : String)
    (hkey : key ∉ ["k", "f", "s", "amt", "fa", "pm", "premium", "network", "layer", "expires_at", "y",
      "z", "source"]) :
    tagValue (nip69Tags js o) key = none := by
  simp only [List.mem_cons, List.not_mem_nil, or_false, not_or] at hkey
  obtain ⟨hk, hf, hs, hamt, hfa, hpm, hpremium, hnetwork, hlayer, hexp, hy, hz, hsource⟩ := hkey
  have hrest : tagValue (tagsOf [("source", given o.source)]) key = none := by
    cases given o.source with
    | none => rfl
    | some url => simp [tagsOf, tagValue, Ne.symm hsource]
  simp only [nip69Tags, List.cons_append, List.nil_append, tagValue_cons, hrest, Ne.symm hk,
    Ne.symm hf, Ne.symm hs, Ne.symm hamt, Ne.symm hfa, Ne.symm hpm, Ne.symm hpremium,
    Ne.symm hnetwork, Ne.symm hlayer, Ne.symm hexp, Ne.symm hy, Ne.symm hz, if_false]

/-! ## The order -/

/-- The source's words for the states. -/
def OnchainState.text : OnchainState → String
  | .listed => "listed"
  | .bonded => "bonded"
  | .funded => "funded"
  | .presigned => "presigned"
  | .remitted => "remitted"
  | .disputed => "disputed"
  | .refunding => "refunding"
  | .settling => "settling"
  | .released => "released"
  | .refunded => "refunded"
  | .sponsorWins => "sponsor_wins"
  | .customerWins => "customer_wins"
  | .cancelled => "cancelled"
  | .swept => "swept"

/-- `KNOWN_STATES`. -/
def OnchainState.known : List OnchainState :=
  [.listed, .bonded, .funded, .presigned, .remitted, .disputed, .refunding, .settling, .released,
    .refunded, .sponsorWins, .customerWins, .cancelled, .swept]

/-- The source's words for the kinds. -/
def SettlementKind.text : SettlementKind → String
  | .release => "release"
  | .refundReserve => "refund:reserve"
  | .refundSponsorTimeout => "refund:sponsor-timeout"
  | .refundCustomerLate => "refund:customer-late"
  | .refundBondExpired => "refund:bond-expired"
  | .refundAccountDisputed => "refund:account-disputed"
  | .sponsorWin => "sponsor_win"
  | .customerWin => "customer_win"

/-- `KNOWN_KINDS`. -/
def SettlementKind.known : List SettlementKind :=
  [.release, .refundReserve, .refundSponsorTimeout, .refundCustomerLate, .refundBondExpired,
    .refundAccountDisputed, .sponsorWin, .customerWin]

/-- `KNOWN_NETWORKS`. -/
def BtcNetworkName.known : List BtcNetworkName := [.mainnet, .signet, .testnet, .regtest]

/-- `ONCHAIN_NIP69_STATUS`. -/
def OnchainState.nip69Status : OnchainState → Nip69Status
  | .listed => .pending
  | .bonded | .funded | .presigned | .remitted | .disputed | .refunding | .settling => .inProgress
  | .released | .sponsorWins => .success
  | .refunded | .customerWins | .cancelled | .swept => .canceled

theorem OnchainState.find_text (s : OnchainState) :
    OnchainState.known.find? (fun x => x.text = s.text) = some s := by
  cases s <;> decide

theorem SettlementKind.find_text (k : SettlementKind) :
    SettlementKind.known.find? (fun x => x.text = k.text) = some k := by
  cases k <;> decide

theorem BtcNetworkName.find_text (n : BtcNetworkName) :
    BtcNetworkName.known.find? (fun x => x.text = n.text) = some n := by
  cases n <;> decide

/-- `OnchainOrder`, as it is written and read: any number may be in a number's place. -/
structure OrderDoc (N : Type) where
  orderId : String
  state : OnchainState
  customerPubkey : Pubkey
  sponsorPubkey : Option Pubkey
  designatedSponsor : Option Pubkey
  amountSat : N
  reserveKrw : Option N
  createdAt : N
  updatedAt : N
  expiration : N
  network : BtcNetworkName
  customerXonly : Option String
  sponsorXonly : Option String
  adminXonly : Option String
  escrowAddress : Option String
  timelockBlocks : Option N
  fundingDeadline : Option N
  fundingOutpoint : Option String
  fundingConfs : Option N
  fundedAt : Option N
  presignDeadline : Option N
  priceKrw : Option N
  payoutSat : Option N
  releaseFeeSat : Option N
  presignedAt : Option N
  accountDeadline : Option N
  accountSentAt : Option N
  krwDeadline : Option N
  remittedAt : Option N
  cosignDeadline : Option N
  accountDisputedAt : Option N
  disputedAt : Option N
  settlementKind : Option SettlementKind
  settlementFeeSat : Option N
  decidedAt : Option N
  settlementTxid : Option String
  settlingAt : Option N
  customerDepositHash : Option String
  sponsorDepositHash : Option String

section Codec

variable (js : Numbers N)

/-- The fields that are written when they are there, in the source's order.  An empty text is not
written. -/
def OrderDoc.fields (o : OrderDoc N) : List (String × Option String) :=
  let str (value : Option String) := given value
  let num (value : Option N) := value.map js.text
  [("sponsor", str o.sponsorPubkey),
    ("reserve-krw", num o.reserveKrw),
    ("customer-xonly", str o.customerXonly),
    ("sponsor-xonly", str o.sponsorXonly),
    ("admin-xonly", str o.adminXonly),
    ("escrow-address", str o.escrowAddress),
    ("timelock-blocks", num o.timelockBlocks),
    ("funding-deadline", num o.fundingDeadline),
    ("funding-outpoint", str o.fundingOutpoint),
    ("funding-confs", num o.fundingConfs),
    ("funded-at", num o.fundedAt),
    ("presign-deadline", num o.presignDeadline),
    ("price-krw", num o.priceKrw),
    ("payout-sat", num o.payoutSat),
    ("release-fee-sat", num o.releaseFeeSat),
    ("presigned-at", num o.presignedAt),
    ("account-deadline", num o.accountDeadline),
    ("account-sent-at", num o.accountSentAt),
    ("krw-deadline", num o.krwDeadline),
    ("remitted-at", num o.remittedAt),
    ("cosign-deadline", num o.cosignDeadline),
    ("account-disputed-at", num o.accountDisputedAt),
    ("disputed-at", num o.disputedAt),
    ("settlement-kind", str (o.settlementKind.map SettlementKind.text)),
    ("settlement-fee-sat", num o.settlementFeeSat),
    ("decided-at", num o.decidedAt),
    ("settlement-txid", str o.settlementTxid),
    ("settling-at", num o.settlingAt),
    ("customer-deposit-payment-hash", str o.customerDepositHash),
    ("sponsor-deposit-payment-hash", str o.sponsorDepositHash)]

/-- `PROTOCOL_VERSION`. -/
def protocolVersion : ℕ := 4

/-- `onchainOrderTags`.  An order for a named sponsor is not shown to other order books. -/
def onchainOrderTags (o : OrderDoc N) (clientTag : String) (appUrl : Option String) :
    List (List String) :=
  let tags := [
    ["d", o.orderId],
    ["t", clientTag],
    ["protocol", toString protocolVersion],
    ["state", o.state.text],
    ["customer", o.customerPubkey],
    ["amount-sat", js.text o.amountSat],
    ["expiration", js.text o.expiration]] ++ tagsOf (o.fields js)
  match given o.designatedSponsor with
  | some sponsor => tags ++ [["designated-sponsor", sponsor], ["network", o.network.text]]
  | none => tags ++ nip69Tags js {
      status := o.state.nip69Status
      amountSat := o.amountSat
      fiatKrw := o.priceKrw.getD js.zero
      network := o.network.text
      layer := "onchain"
      expiresAt := o.expiration
      source := (given appUrl).map fun url => orderLink url .onchain o.orderId }

/-- The checks and the texts that `parseOnchainOrder` starts with. -/
def OrderDoc.parseOnchainOrder (tags : List (List String)) (createdAt : N) (clientTag : String) :
    Option (OrderDoc N) := do
  guard (tagValue tags "t" = some clientTag)
  let orderId ← given (tagValue tags "d")
  let customerPubkey ← given (tagValue tags "customer")
  let state ← (tagValue tags "state").bind fun s => OnchainState.known.find? fun x => x.text = s
  let network ← (tagValue tags "network").bind fun s => BtcNetworkName.known.find? fun x => x.text = s
  let amountSat ← js.readNum tags "amount-sat"
  guard (js.isInteger amountSat && js.isPositive amountSat)
  guard (["customer-xonly", "sponsor-xonly", "admin-xonly"].all fun name =>
    (tagValue tags name).all isHex64)
  let kind := (tagValue tags "settlement-kind").map fun s => SettlementKind.known.find? fun x => x.text = s
  guard (kind ≠ some none)
  return {
    orderId := orderId
    state := state
    customerPubkey := customerPubkey
    sponsorPubkey := tagValue tags "sponsor"
    designatedSponsor := tagValue tags "designated-sponsor"
    amountSat := amountSat
    reserveKrw := js.readNum tags "reserve-krw"
    createdAt := createdAt
    updatedAt := createdAt
    expiration := (js.readNum tags "expiration").getD js.zero
    network := network
    customerXonly := tagValue tags "customer-xonly"
    sponsorXonly := tagValue tags "sponsor-xonly"
    adminXonly := tagValue tags "admin-xonly"
    escrowAddress := tagValue tags "escrow-address"
    timelockBlocks := js.readNum tags "timelock-blocks"
    fundingDeadline := js.readNum tags "funding-deadline"
    fundingOutpoint := tagValue tags "funding-outpoint"
    fundingConfs := js.readNum tags "funding-confs"
    fundedAt := js.readNum tags "funded-at"
    presignDeadline := js.readNum tags "presign-deadline"
    priceKrw := js.readNum tags "price-krw"
    payoutSat := js.readNum tags "payout-sat"
    releaseFeeSat := js.readNum tags "release-fee-sat"
    presignedAt := js.readNum tags "presigned-at"
    accountDeadline := js.readNum tags "account-deadline"
    accountSentAt := js.readNum tags "account-sent-at"
    krwDeadline := js.readNum tags "krw-deadline"
    remittedAt := js.readNum tags "remitted-at"
    cosignDeadline := js.readNum tags "cosign-deadline"
    accountDisputedAt := js.readNum tags "account-disputed-at"
    disputedAt := js.readNum tags "disputed-at"
    settlementKind := kind.bind id
    settlementFeeSat := js.readNum tags "settlement-fee-sat"
    decidedAt := js.readNum tags "decided-at"
    settlementTxid := tagValue tags "settlement-txid"
    settlingAt := js.readNum tags "settling-at"
    customerDepositHash := tagValue tags "customer-deposit-payment-hash"
    sponsorDepositHash := tagValue tags "sponsor-deposit-payment-hash" }

/-- What a device makes of an order: an empty text and a number that is not finite are not there. -/
def OrderDoc.published (o : OrderDoc N) (createdAt : N) : OrderDoc N :=
  let num (value : Option N) := value.filter fun n => js.isFinite n
  { orderId := o.orderId
    state := o.state
    customerPubkey := o.customerPubkey
    sponsorPubkey := given o.sponsorPubkey
    designatedSponsor := given o.designatedSponsor
    amountSat := o.amountSat
    reserveKrw := num o.reserveKrw
    createdAt := createdAt
    updatedAt := createdAt
    expiration := (num (some o.expiration)).getD js.zero
    network := o.network
    customerXonly := given o.customerXonly
    sponsorXonly := given o.sponsorXonly
    adminXonly := given o.adminXonly
    escrowAddress := given o.escrowAddress
    timelockBlocks := num o.timelockBlocks
    fundingDeadline := num o.fundingDeadline
    fundingOutpoint := given o.fundingOutpoint
    fundingConfs := num o.fundingConfs
    fundedAt := num o.fundedAt
    presignDeadline := num o.presignDeadline
    priceKrw := num o.priceKrw
    payoutSat := num o.payoutSat
    releaseFeeSat := num o.releaseFeeSat
    presignedAt := num o.presignedAt
    accountDeadline := num o.accountDeadline
    accountSentAt := num o.accountSentAt
    krwDeadline := num o.krwDeadline
    remittedAt := num o.remittedAt
    cosignDeadline := num o.cosignDeadline
    accountDisputedAt := num o.accountDisputedAt
    disputedAt := num o.disputedAt
    settlementKind := o.settlementKind
    settlementFeeSat := num o.settlementFeeSat
    decidedAt := num o.decidedAt
    settlementTxid := given o.settlementTxid
    settlingAt := num o.settlingAt
    customerDepositHash := given o.customerDepositHash
    sponsorDepositHash := given o.sponsorDepositHash }

/-- The numbers of an order, but for the times of its event. -/
def OrderDoc.numbers (o : OrderDoc N) : List N :=
  o.amountSat :: o.expiration ::
    [o.reserveKrw, o.timelockBlocks, o.fundingDeadline, o.fundingConfs, o.fundedAt,
      o.presignDeadline, o.priceKrw, o.payoutSat, o.releaseFeeSat, o.presignedAt, o.accountDeadline,
      o.accountSentAt, o.krwDeadline, o.remittedAt, o.cosignDeadline, o.accountDisputedAt,
      o.disputedAt, o.settlementFeeSat, o.decidedAt, o.settlingAt].filterMap id

/-- An order that every device can read. -/
structure OrderDoc.Readable (o : OrderDoc N) : Prop where
  orderId : o.orderId ≠ ""
  customer : o.customerPubkey ≠ ""
  amount : js.isInteger o.amountSat = true ∧ js.isPositive o.amountSat = true
  keys : ∀ key ∈ [given o.customerXonly, given o.sponsorXonly, given o.adminXonly],
    key.all isHex64 = true

instance (o : OrderDoc N) : Decidable (o.Readable js) :=
  decidable_of_iff (o.orderId ≠ "" ∧ o.customerPubkey ≠ "" ∧
      (js.isInteger o.amountSat = true ∧ js.isPositive o.amountSat = true) ∧
      ∀ key ∈ [given o.customerXonly, given o.sponsorXonly, given o.adminXonly],
        key.all isHex64 = true)
    ⟨fun h => ⟨h.1, h.2.1, h.2.2.1, h.2.2.2⟩, fun h => ⟨h.orderId, h.customer, h.amount, h.keys⟩⟩

/-! ## The way back -/

/-- The tags behind the fields, for an order of either sort. -/
def OrderDoc.tail (o : OrderDoc N) (appUrl : Option String) : List (List String) :=
  match given o.designatedSponsor with
  | some sponsor => [["designated-sponsor", sponsor], ["network", o.network.text]]
  | none => nip69Tags js {
      status := o.state.nip69Status
      amountSat := o.amountSat
      fiatKrw := o.priceKrw.getD js.zero
      network := o.network.text
      layer := "onchain"
      expiresAt := o.expiration
      source := (given appUrl).map fun url => orderLink url .onchain o.orderId }

theorem onchainOrderTags_eq (o : OrderDoc N) (clientTag : String) (appUrl : Option String) :
    onchainOrderTags js o clientTag appUrl = [
      ["d", o.orderId],
      ["t", clientTag],
      ["protocol", toString protocolVersion],
      ["state", o.state.text],
      ["customer", o.customerPubkey],
      ["amount-sat", js.text o.amountSat],
      ["expiration", js.text o.expiration]] ++ (tagsOf (o.fields js) ++ o.tail js appUrl) := by
  unfold onchainOrderTags OrderDoc.tail
  cases given o.designatedSponsor with
  | none => simp only [List.append_assoc]
  | some sponsor => simp only [List.append_assoc]

/-- The names that are read from behind the fields. -/
theorem tagValue_tail (o : OrderDoc N) (appUrl : Option String) (key : String)
    (hkey : key ∉ ["k", "f", "s", "amt", "fa", "pm", "premium", "layer", "expires_at", "y", "z",
      "source"]) :
    tagValue (o.tail js appUrl) key =
      if key = "network" then some o.network.text
      else if key = "designated-sponsor" then given o.designatedSponsor else none := by
  simp only [List.mem_cons, List.not_mem_nil, or_false, not_or] at hkey
  unfold OrderDoc.tail
  cases hd : given o.designatedSponsor with
  | none =>
    by_cases hn : key = "network"
    · subst hn
      simp [nip69Tags, tagValue_cons]
    · rw [if_neg hn, ite_self, tagValue_nip69Tags js _ key]
      simp only [List.mem_cons, List.not_mem_nil, or_false, not_or]
      exact ⟨hkey.1, hkey.2.1, hkey.2.2.1, hkey.2.2.2.1, hkey.2.2.2.2.1, hkey.2.2.2.2.2.1,
        hkey.2.2.2.2.2.2.1, hn, hkey.2.2.2.2.2.2.2⟩
  | some sponsor =>
    simp only [tagValue_cons]
    by_cases hn : key = "network"
    · subst hn
      simp
    · simp [tagValue, eq_comm, hn]

/-- Where a name is read from. -/
theorem tagValue_onchainOrderTags (o : OrderDoc N) (clientTag : String) (appUrl : Option String)
    (key : String) (hkey : key ∉ ["k", "f", "s", "amt", "fa", "pm", "premium", "layer", "expires_at",
      "y", "z", "source"]) :
    tagValue (onchainOrderTags js o clientTag appUrl) key =
      if "d" = key then some o.orderId
      else if "t" = key then some clientTag
      else if "protocol" = key then some (toString protocolVersion)
      else if "state" = key then some o.state.text
      else if "customer" = key then some o.customerPubkey
      else if "amount-sat" = key then some (js.text o.amountSat)
      else if "expiration" = key then some (js.text o.expiration)
      else (((o.fields js).lookup key).bind id).or
        (if key = "network" then some o.network.text
          else if key = "designated-sponsor" then given o.designatedSponsor else none) := by
  have hnodup : ((o.fields js).map Prod.fst).Nodup := by
    simp [OrderDoc.fields]
  rw [onchainOrderTags_eq]
  simp only [List.cons_append, List.nil_append, tagValue_cons,
    tagValue_tagsOf _ _ _ hnodup, tagValue_tail js o appUrl key hkey]

/-- A number that has been written is read back. -/
theorem map_number_text (v : Option N) : v.map (js.number ∘ js.text) = v := by
  have hid : js.number ∘ js.text = id := funext js.number_text
  rw [hid, Option.map_id, id]

/-- A kind that has been written is read back. -/
theorem map_find_kind (kind : Option SettlementKind) :
    (given (kind.map SettlementKind.text)).map
      (fun s => SettlementKind.known.find? fun x => decide (x.text = s)) = kind.map some := by
  cases kind with
  | none => rfl
  | some k =>
    have hgiven : given (some k.text) = some k.text := by
      cases k <;> rfl
    rw [Option.map_some, hgiven, Option.map_some, SettlementKind.find_text, Option.map_some]

theorem isFinite_of_isInteger {n : N} (h : js.isInteger n = true) : js.isFinite n = true := by
  unfold Numbers.isInteger at h
  unfold Numbers.isFinite
  cases hv : js.value n with
  | none => simp [hv] at h
  | some v => cases v <;> simp_all

/-- **What comes back**: the order, without its empty texts and its numbers that are not finite, if
it can be read at all. -/
theorem parseOnchainOrder_tags (o : OrderDoc N) (createdAt : N) (clientTag : String)
    (appUrl : Option String) :
    OrderDoc.parseOnchainOrder js (onchainOrderTags js o clientTag appUrl) createdAt clientTag =
      if o.Readable js then some (o.published js createdAt) else none := by
  have hkind : (given (o.settlementKind.map SettlementKind.text)).map
      (fun s => SettlementKind.known.find? fun x => decide (x.text = s)) =
      o.settlementKind.map some := map_find_kind o.settlementKind
  have hknown : o.settlementKind.map some ≠ some none := by
    cases o.settlementKind <;> simp
  have hjoin : ((o.settlementKind.map some).bind fun kind => kind) = o.settlementKind := by
    cases o.settlementKind <;> rfl
  by_cases hid : o.orderId = ""
  · rw [if_neg fun h => h.orderId hid]
    simp [OrderDoc.parseOnchainOrder, tagValue_onchainOrderTags, hid, given]
  by_cases hc : o.customerPubkey = ""
  · rw [if_neg fun h => h.customer hc]
    simp [OrderDoc.parseOnchainOrder, tagValue_onchainOrderTags, hc, given]
  have hd : given (some o.orderId) = some o.orderId := by simp [given, hid]
  have hcustomer : given (some o.customerPubkey) = some o.customerPubkey := by simp [given, hc]
  by_cases ha : js.isInteger o.amountSat = true ∧ js.isPositive o.amountSat = true
  · have hamount : (some o.amountSat).filter (fun n => js.isFinite n) = some o.amountSat := by
      rw [Option.filter_some, if_pos (isFinite_of_isInteger js ha.1)]
    by_cases hk : ∀ key ∈ [given o.customerXonly, given o.sponsorXonly, given o.adminXonly],
        key.all isHex64 = true
    · rw [if_pos ⟨hid, hc, ha, hk⟩]
      simp only [List.forall_mem_cons, List.not_mem_nil, IsEmpty.forall_iff, implies_true,
        and_true] at hk
      simp [OrderDoc.parseOnchainOrder, tagValue_onchainOrderTags, OrderDoc.fields, List.lookup_cons,
        Numbers.readNum, js.number_text, OnchainState.find_text, BtcNetworkName.find_text,
        map_number_text, hkind, hknown, hjoin, hd, hcustomer, ha, hamount, hk, OrderDoc.published]
    · rw [if_neg fun h => hk h.keys]
      simp only [List.forall_mem_cons, List.not_mem_nil, IsEmpty.forall_iff, implies_true,
        and_true] at hk
      simp [OrderDoc.parseOnchainOrder, tagValue_onchainOrderTags, OrderDoc.fields, List.lookup_cons,
        Numbers.readNum, js.number_text, OnchainState.find_text, BtcNetworkName.find_text, hd,
        hcustomer, hamount, hk]
  · rw [if_neg fun h => ha h.amount]
    simp [OrderDoc.parseOnchainOrder, tagValue_onchainOrderTags, OrderDoc.fields, List.lookup_cons,
      Numbers.readNum, js.number_text, OnchainState.find_text, BtcNetworkName.find_text, hd,
      hcustomer]
    exact fun _ hi hp => absurd ⟨hi, hp⟩ ha

theorem holds_of_guard {p : Prop} [Decidable p] {u : Unit} (h : (guard p : Option Unit) = some u) :
    p := by
  by_contra hp
  simp [guard, hp] at h

/-- An order that has been accepted can be read by every device. -/
theorem readable_of_parse {tags : List (List String)} {createdAt : N} {clientTag : String}
    {o : OrderDoc N} (h : OrderDoc.parseOnchainOrder js tags createdAt clientTag = some o) : o.Readable js := by
  simp only [OrderDoc.parseOnchainOrder, Option.bind_eq_bind, Option.bind_eq_some_iff] at h
  obtain ⟨_, -, orderId, hid, customer, hcustomer, state, -, network, -, amountSat, -, _, hamount, _,
    hkeys, _, -, ho⟩ := h
  obtain rfl := Option.some.inj ho
  have hne : ∀ {value : Option String} {text : String}, given value = some text → text ≠ "" :=
    fun hv => of_decide_eq_true (Option.filter_eq_some_iff.mp hv).2
  have hgiven : ∀ {name : String}, (tagValue tags name).all isHex64 = true →
      (given (tagValue tags name)).all isHex64 = true := by
    intro name hall
    cases hv : tagValue tags name with
    | none => rfl
    | some text =>
      rw [hv] at hall
      by_cases ht : text = "" <;> simp_all [given]
  have hall := List.all_eq_true.mp (holds_of_guard hkeys)
  refine ⟨hne hid, hne hcustomer, Bool.and_eq_true_iff.mp (holds_of_guard hamount), ?_⟩
  simp only [List.forall_mem_cons, List.not_mem_nil, IsEmpty.forall_iff, implies_true, and_true]
  exact ⟨hgiven (hall _ (by simp)), hgiven (hall _ (by simp)), hgiven (hall _ (by simp))⟩

/-- An order that has been accepted has finite numbers only. -/
theorem isFinite_of_parse {tags : List (List String)} {createdAt : N} {clientTag : String}
    {o : OrderDoc N} (h : OrderDoc.parseOnchainOrder js tags createdAt clientTag = some o) :
    ∀ n ∈ o.numbers, js.isFinite n = true := by
  simp only [OrderDoc.parseOnchainOrder, Option.bind_eq_bind, Option.bind_eq_some_iff] at h
  obtain ⟨_, -, orderId, -, customer, -, state, -, network, -, amountSat, hamount, _, -, _, -, _, -,
    ho⟩ := h
  obtain rfl := Option.some.inj ho
  have hzero : js.isFinite js.zero = true := by rw [Numbers.isFinite, js.value_zero]
  rw [OrderDoc.numbers, List.forall_mem_cons, List.forall_mem_cons]
  refine ⟨Numbers.isFinite_of_readNum hamount, ?_, fun n hn => ?_⟩
  · dsimp only
    cases he : js.readNum tags "expiration" with
    | none => exact hzero
    | some n => exact Numbers.isFinite_of_readNum he
  · obtain ⟨value, hvalue, hsome⟩ := List.mem_filterMap.mp hn
    -- each of them is read from a tag of its own
    have hread : value ∈ ["reserve-krw", "timelock-blocks", "funding-deadline", "funding-confs",
        "funded-at", "presign-deadline", "price-krw", "payout-sat", "release-fee-sat",
        "presigned-at", "account-deadline", "account-sent-at", "krw-deadline", "remitted-at",
        "cosign-deadline", "account-disputed-at", "disputed-at", "settlement-fee-sat",
        "decided-at", "settling-at"].map (js.readNum tags) := hvalue
    obtain ⟨name, -, hname⟩ := List.mem_map.mp hread
    exact Numbers.isFinite_of_readNum (hname.trans hsome)

/-- **What has been accepted can be passed on**: it has finite numbers only, and written down again
and read by any device it is the same order, without its empty texts. -/
theorem parseOnchainOrder_again (tags : List (List String)) (createdAt createdAt' : N)
    (clientTag clientTag' : String) (appUrl : Option String) :
    ((OrderDoc.parseOnchainOrder js tags createdAt clientTag).bind fun o =>
        OrderDoc.parseOnchainOrder js (onchainOrderTags js o clientTag' appUrl) createdAt' clientTag') =
      ((OrderDoc.parseOnchainOrder js tags createdAt clientTag).map fun o =>
        o.published js createdAt') ∧
    ∀ o, OrderDoc.parseOnchainOrder js tags createdAt clientTag = some o →
      ∀ n ∈ o.numbers, js.isFinite n = true := by
  refine ⟨?_, fun o ho => isFinite_of_parse js ho⟩
  cases h : OrderDoc.parseOnchainOrder js tags createdAt clientTag with
  | none => rfl
  | some o =>
    rw [Option.bind_some, parseOnchainOrder_tags, if_pos (readable_of_parse js h), Option.map_some]

/-- Tags of an order that somebody made by hand. -/
def sampleOrderTags : List (List String) :=
  [["d", "order"], ["t", "oc"], ["customer", "alice"], ["state", "funded"], ["network", "signet"],
    ["amount-sat", "50000"], ["expiration", "soon"], ["price-krw", "71/2"], ["funded-at", "1700000000"],
    ["sponsor", ""]]

theorem parseOnchainOrder_again_sample :
    ∃ o, OrderDoc.parseOnchainOrder .ofRat sampleOrderTags (some 5) "oc" = some o ∧
      OrderDoc.parseOnchainOrder .ofRat (onchainOrderTags .ofRat o "oc" none) (some 6) "oc" =
        some (o.published .ofRat (some 6)) ∧
      ∀ n ∈ o.numbers, Numbers.ofRat.isFinite n = true := by
  have haccepted : (OrderDoc.parseOnchainOrder .ofRat sampleOrderTags (some 5) "oc").isSome = true := by
    decide +kernel
  obtain ⟨o, ho⟩ := Option.isSome_iff_exists.mp haccepted
  obtain ⟨hagain, hfinite⟩ := parseOnchainOrder_again .ofRat sampleOrderTags (some 5) (some 6) "oc"
    "oc" none
  rw [ho, Option.bind_some, Option.map_some] at hagain
  exact ⟨o, ho, hagain, hfinite o ho⟩

end Codec

end LnPay
