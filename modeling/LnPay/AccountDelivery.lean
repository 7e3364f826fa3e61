/-
# The account on the sponsor's device (`customer/src/sponsor/nostr/service.ts`,
`customer/src/onchain/nostr/service.ts`, the order and account stores of both tracks)

The customer sends the account straight to the sponsor, so that the device has to
find out who sent it, and only the order says who the customer is.  Orders and
messages come through two subscriptions:

  message ─(order known)→ sender checked ─await→ opened, first one kept
     └────(not yet)────→ buffer of ten ──first order event──→ judged again

The two tracks differ in which order event replaces which, in whether the order
has to name me, and in an await before the judgement.  `InTime` says which
schedules keep the account.
-/
import LnPay.ClientEvents

namespace LnPay

/-! ## Reading the events -/

/-- An order as the two services look at it. -/
structure OrderView where
  orderId : String
  customerPubkey : Pubkey
  sponsorPubkey : Option Pubkey
  updatedAt : ℚ
  deriving DecidableEq

/-- `ONCHAIN_STATES`. -/
def onchainStates : List String :=
  ["listed", "bonded", "funded", "presigned", "remitted", "disputed", "refunding", "settling",
    "released", "refunded", "sponsor_wins", "customer_wins", "cancelled", "swept"]

/-- `SETTLEMENT_KINDS`. -/
def settlementKinds : List String :=
  ["release", "refund:reserve", "refund:sponsor-timeout", "refund:customer-late",
    "refund:bond-expired", "refund:account-disputed", "sponsor_win", "customer_win"]

/-- `KNOWN_NETWORKS`. -/
def knownNetworks : List String := ["mainnet", "signet", "testnet", "regtest"]

/-- `parseOnchainOrder`: a shape it does not know is not an order. -/
def parseOnchainOrder (clientTag : String) (e : RelayEvent) : Option OrderView :=
  if tagValue e.tags "t" ≠ some clientTag then none
  else
    match e.text "d", e.text "customer", tagValue e.tags "state", tagValue e.tags "network" with
    | some orderId, some customer, some state, some network =>
      if state ∈ onchainStates ∧ network ∈ knownNetworks ∧ 0 < e.number "amount-sat" ∧
          (∀ name ∈ ["customer-xonly", "sponsor-xonly", "admin-xonly"],
            (tagValue e.tags name).all isHex64) ∧
          (tagValue e.tags "settlement-kind").all (· ∈ settlementKinds) then
        some ⟨orderId, customer, tagValue e.tags "sponsor", e.createdAt⟩
      else none
    | _, _, _, _ => none

/-- `parseEvent` of the sponsor role. -/
def parseSponsorOrder (appPubkey : Pubkey) (e : RelayEvent) : Option OrderView :=
  (parseLnOrderEvent appPubkey e).map fun o =>
    ⟨o.orderId, o.customerPubkey, o.sponsorPubkey, o.updatedAt⟩

/-- `parseAccountInfoEvent`, as far as which order the message is for. -/
def accountInfoOrder (e : RelayEvent) : Option String :=
  if tagValue e.tags "action" = some "account-info" then extractOrderId e.tags else none

/-- The same in the on-chain service, which looks at the third part of the `a` tag only. -/
def onchainAccountOrder (e : RelayEvent) : Option String :=
  if tagValue e.tags "action" = some "account-info" then
    (tagValue e.tags "a").bind fun a =>
      (((a.toList.splitOn ':').map String.ofList)[2]?).filter fun s => s ≠ ""
  else none

/-! ## The two services -/

/-- A track of the client, with what its readers need to know. -/
inductive ClientTrack
  | lightning (appPubkey : Pubkey)
  | onchain (clientTag : String) (myPubkey : Pubkey)

/-- The reader of order events. -/
def ClientTrack.view : ClientTrack → RelayEvent → Option OrderView
  | .lightning appPubkey => parseSponsorOrder appPubkey
  | .onchain clientTag _ => parseOnchainOrder clientTag

/-- The reader of account messages. -/
def ClientTrack.messageOrder : ClientTrack → RelayEvent → Option String
  | .lightning _ => accountInfoOrder
  | .onchain _ _ => onchainAccountOrder

/-- Whether a stored order gives way: `upsertOrder` wants a later one, `upsertOnchainOrder` takes one
of the same time too. -/
def ClientTrack.replaces : ClientTrack → OrderView → OrderView → Bool
  | .lightning _, old, new => old.updatedAt < new.updatedAt
  | .onchain _ _, old, new => old.updatedAt ≤ new.updatedAt

/-- Whether the order has to name me before an account is opened. -/
def ClientTrack.forMe : ClientTrack → OrderView → Bool
  | .lightning _, _ => true
  | .onchain _ myPubkey, o => o.sponsorPubkey = some myPubkey

/-- Whether a message waits for my key before it is judged. -/
def ClientTrack.waits : ClientTrack → Bool
  | .lightning _ => false
  | .onchain _ _ => true

/-- The store of a track after an order event. -/
def ClientTrack.upsert (track : ClientTrack) : Option OrderView → OrderView → Option OrderView
  | none, o => some o
  | some old, o => if track.replaces old o then some o else some old

/-- `MAX_BUFFERED_PER_ORDER`. -/
def maxBufferedPerOrder : ℕ := 10

/-- The device of a sponsor, for one order: the stored order, the messages that came before it, those
that wait for my public key, those that have been judged good and wait for my secret key, and the
account that is kept. -/
structure SponsorDevice where
  order : Option OrderView
  awaitingOrder : List RelayEvent
  arrived : List RelayEvent
  opening : List RelayEvent
  account : Option AccountInfo

section Service

variable (track : ClientTrack) (orderId : String) (openAccount : RelayEvent → Option AccountInfo)

/-- `handleAccountInfo`, up to its first await. -/
def judgeAccount (m : RelayEvent) (d : SponsorDevice) : SponsorDevice :=
  match d.order with
  | none =>
    if d.awaitingOrder.length < maxBufferedPerOrder then
      { d with awaitingOrder := d.awaitingOrder ++ [m] }
    else d
  | some o =>
    if m.pubkey ≠ o.customerPubkey then d
    else if track.forMe o then { d with opening := d.opening ++ [m] }
    else d

/-- What is taken out of the buffer is judged again, in the order of arrival. -/
def drainBuffer (d : SponsorDevice) : SponsorDevice :=
  d.awaitingOrder.foldl (fun d m => judgeAccount track m d) { d with awaitingOrder := [] }

/-- `handleAdminOrder` and `handleOrderEvent`: the on-chain one returns when the event is not stored. -/
def handleOrder (o : OrderView) (d : SponsorDevice) : SponsorDevice :=
  match track, d.order with
  | .onchain _ _, some old =>
    if track.replaces old o then drainBuffer track { d with order := some o } else d
  | _, _ => drainBuffer track { d with order := track.upsert d.order o }

/-- What happens on the device. -/
inductive SponsorInput
  | order (e : RelayEvent)
  | message (m : RelayEvent)
  | judge (m : RelayEvent)
  | opened (m : RelayEvent)

/-- One step; `none` when it cannot be taken now.  Awaits end in any order. -/
def SponsorDevice.step (d : SponsorDevice) : SponsorInput → Option SponsorDevice
  | .order e =>
    match track.view e with
    | none => none
    | some o => if o.orderId = orderId then some (handleOrder track o d) else none
  | .message m =>
    if track.messageOrder m ≠ some orderId then none
    else if track.waits then some { d with arrived := d.arrived ++ [m] }
    else some (judgeAccount track m d)
  | .judge m =>
    if m ∈ d.arrived then some (judgeAccount track m { d with arrived := d.arrived.erase m })
    else none
  | .opened m =>
    if m ∈ d.opening then
      some { d with opening := d.opening.erase m, account := d.account.or (openAccount m) }
    else none

/-- The device that knows nothing of the order yet. -/
def sponsorSystem : TransitionSystem SponsorDevice SponsorInput where
  init d := d = ⟨none, [], [], [], none⟩
  step := SponsorDevice.step track orderId openAccount

/-! ## Schedules -/

/-- The order event of an input. -/
def ClientTrack.orderOf : SponsorInput → Option OrderView
  | .order e => track.view e
  | _ => none

/-- The message that an input judges. -/
def ClientTrack.judges : SponsorInput → Option RelayEvent
  | .message m => if track.waits then none else some m
  | .judge m => some m
  | _ => none

/-- The stored order after the order events of a schedule. -/
def ClientTrack.stored (start : Option OrderView) (is : List SponsorInput) : Option OrderView :=
  (is.filterMap track.orderOf).foldl track.upsert start

/-- From a store with `start`, after `n` judgements: the schedule judges `a` at a time when the
stored order is for me, or before any order, among the first ten judgements, and the first order
event that follows is for me. -/
def InTimeFrom (start : Option OrderView) (n : ℕ) (a : RelayEvent) (is : List SponsorInput) : Prop :=
  ∃ pre i post, is = pre ++ i :: post ∧ track.judges i = some a ∧
    match track.stored start pre with
    | some o => track.forMe o = true
    | none => n + (pre.filterMap track.judges).length < maxBufferedPerOrder ∧
        ∃ o, (post.filterMap track.orderOf).head? = some o ∧ track.forMe o = true

/-- The same from the beginning. -/
def InTime (a : RelayEvent) (is : List SponsorInput) : Prop := InTimeFrom track none 0 a is

end Service

section Laws

variable {track : ClientTrack} {orderId : String} {openAccount : RelayEvent → Option AccountInfo}
  {a m : RelayEvent} {account : AccountInfo} {start : Option OrderView} {n : ℕ} {i : SponsorInput}
  {is : List SponsorInput} {d d' : SponsorDevice} {o : OrderView}

/-- Whether judging `a` now keeps it, with `is` still to come. -/
def Keeps (track : ClientTrack) (start : Option OrderView) (n : ℕ) (is : List SponsorInput) : Prop :=
  match start with
  | some o => track.forMe o = true
  | none => n < maxBufferedPerOrder ∧
      ∃ o, (is.filterMap track.orderOf).head? = some o ∧ track.forMe o = true

theorem stored_cons : track.stored start (i :: is) =
    track.stored (((track.orderOf i).map (track.upsert start)).getD start) is := by
  unfold ClientTrack.stored
  rw [List.filterMap_cons]
  cases track.orderOf i with
  | none => rfl
  | some o => rfl

/-- A schedule is in time by its first input, or by the rest. -/
theorem inTimeFrom_cons : InTimeFrom track start n a (i :: is) ↔
    (track.judges i = some a ∧ Keeps track start n is) ∨
      InTimeFrom track (((track.orderOf i).map (track.upsert start)).getD start)
        (n + if (track.judges i).isSome then 1 else 0) a is := by
  -- what a judgement after `i :: pre` finds
  have hshift : ∀ pre post : List SponsorInput,
      (match track.stored start (i :: pre) with
        | some o => track.forMe o = true
        | none => n + ((i :: pre).filterMap track.judges).length < maxBufferedPerOrder ∧
            ∃ o, (post.filterMap track.orderOf).head? = some o ∧ track.forMe o = true) ↔
      match track.stored (((track.orderOf i).map (track.upsert start)).getD start) pre with
        | some o => track.forMe o = true
        | none => (n + if (track.judges i).isSome then 1 else 0) +
              (pre.filterMap track.judges).length < maxBufferedPerOrder ∧
            ∃ o, (post.filterMap track.orderOf).head? = some o ∧ track.forMe o = true := by
    intro pre post
    have hlen : n + ((i :: pre).filterMap track.judges).length =
        (n + if (track.judges i).isSome then 1 else 0) + (pre.filterMap track.judges).length := by
      rw [List.filterMap_cons]
      cases track.judges i with
      | none => simp
      | some m =>
        simp only [List.length_cons, Option.isSome_some, if_true]
        omega
    rw [stored_cons, hlen]
  constructor
  · rintro ⟨pre, j, post, hsplit, hj, hwhen⟩
    cases pre with
    | nil =>
      obtain ⟨rfl, rfl⟩ := List.cons.inj hsplit
      exact .inl ⟨hj, hwhen⟩
    | cons i' pre =>
      obtain ⟨rfl, rfl⟩ := List.cons.inj hsplit
      exact .inr ⟨pre, j, post, rfl, hj, (hshift pre post).mp hwhen⟩
  · rintro (⟨hj, hwhen⟩ | ⟨pre, j, post, rfl, hj, hwhen⟩)
    · exact ⟨[], i, is, rfl, hj, hwhen⟩
    · exact ⟨i :: pre, j, post, rfl, hj, (hshift pre post).mpr hwhen⟩

theorem not_inTimeFrom_nil : ¬ InTimeFrom track start n a [] := by
  rintro ⟨pre, i, post, h, -⟩
  simp at h

/-! ### Judging -/

/-- What is known on the way, after `n` judgements: whose messages are where, and what is kept. -/
structure DeliveryInv (a : RelayEvent) (account : AccountInfo) (n : ℕ) (d : SponsorDevice) : Prop where
  customer : ∀ o, d.order = some o → o.customerPubkey = a.pubkey
  empty : d.order ≠ none → d.awaitingOrder = []
  count : d.order = none → d.awaitingOrder.length = min n maxBufferedPerOrder
  buffered : ∀ m ∈ d.awaitingOrder, m = a ∨ m.pubkey ≠ a.pubkey
  waiting : ∀ m ∈ d.arrived, m = a ∨ m.pubkey ≠ a.pubkey
  judged : ∀ m ∈ d.opening, m = a
  kept : d.account = none ∨ d.account = some account

/-- With an order in the store the number of judgements does not matter. -/
theorem DeliveryInv.recount (h : DeliveryInv a account n d) (hne : d.order ≠ none) (n' : ℕ) :
    DeliveryInv a account n' d :=
  ⟨h.customer, h.empty, fun hn => absurd hn hne, h.buffered, h.waiting, h.judged, h.kept⟩

/-- The account is there, is about to be opened, or is in the buffer of an order that will be mine. -/
def Held (track : ClientTrack) (a : RelayEvent) (account : AccountInfo) (d : SponsorDevice)
    (is : List SponsorInput) : Prop :=
  d.account = some account ∨ a ∈ d.opening ∨ (a ∈ d.awaitingOrder ∧ d.order = none ∧
    ∃ o, (is.filterMap track.orderOf).head? = some o ∧ track.forMe o = true)

/-- A judgement before any order. -/
theorem DeliveryInv.judge_none (track : ClientTrack) (h : DeliveryInv a account n d) (ho : d.order = none)
    (hm : m = a ∨ m.pubkey ≠ a.pubkey) :
    DeliveryInv a account (n + 1) (judgeAccount track m d) ∧
      (judgeAccount track m d).order = d.order ∧
      ∀ is, Held track a account (judgeAccount track m d) is ↔
        Held track a account d is ∨ (m = a ∧ Keeps track none n is) := by
  have hlen := h.count ho
  unfold judgeAccount
  split
  · by_cases hroom : d.awaitingOrder.length < maxBufferedPerOrder
    · rw [if_pos hroom]
      have hn : n < maxBufferedPerOrder := by omega
      refine ⟨⟨h.customer, ?_, ?_, ?_, h.waiting, h.judged, h.kept⟩, rfl, ?_⟩
      · intro hne
        exact absurd ho hne
      · intro _
        show (d.awaitingOrder ++ [m]).length = _
        rw [List.length_append, List.length_singleton]
        omega
      · intro m' hm'
        rcases List.mem_append.mp hm' with hm' | hm'
        · exact h.buffered m' hm'
        · rw [List.mem_singleton.mp hm']
          exact hm
      · intro is
        have hmem : a ∈ d.awaitingOrder ++ [m] ↔ a ∈ d.awaitingOrder ∨ m = a := by
          rw [List.mem_append, List.mem_singleton, eq_comm (a := a)]
        constructor
        · rintro (hacc | hop | ⟨hin, -, hmine⟩)
          · exact .inl (.inl hacc)
          · exact .inl (.inr (.inl hop))
          · rcases hmem.mp hin with hin | rfl
            · exact .inl (.inr (.inr ⟨hin, ho, hmine⟩))
            · exact .inr ⟨rfl, hn, hmine⟩
        · rintro ((hacc | hop | ⟨hin, -, hmine⟩) | ⟨hma, -, hmine⟩)
          · exact .inl hacc
          · exact .inr (.inl hop)
          · exact .inr (.inr ⟨hmem.mpr (.inl hin), ho, hmine⟩)
          · exact .inr (.inr ⟨hmem.mpr (.inr hma), ho, hmine⟩)
    · rw [if_neg hroom]
      have hn : ¬ n < maxBufferedPerOrder := by omega
      refine ⟨⟨h.customer, h.empty, ?_, h.buffered, h.waiting, h.judged, h.kept⟩, rfl, ?_⟩
      · intro _
        omega
      · intro is
        constructor
        · intro hheld
          exact .inl hheld
        · rintro (hheld | ⟨-, hlt, -⟩)
          · exact hheld
          · exact absurd hlt hn
  · rename_i o ho'
    rw [ho] at ho'
    cases ho'

/-- A judgement by a stored order. -/
theorem DeliveryInv.judge_some (track : ClientTrack) (h : DeliveryInv a account n d) (ho : d.order = some o)
    (hm : m = a ∨ m.pubkey ≠ a.pubkey) :
    DeliveryInv a account (n + 1) (judgeAccount track m d) ∧
      (judgeAccount track m d).order = d.order ∧
      ∀ is, Held track a account (judgeAccount track m d) is ↔
        Held track a account d is ∨ (m = a ∧ Keeps track (some o) n is) := by
  have hcust := h.customer o ho
  have hne : d.order ≠ none := by
    rw [ho]
    exact Option.some_ne_none o
  have hskip := h.recount hne (n + 1)
  unfold judgeAccount
  split
  · exact absurd ‹d.order = none› hne
  · rename_i o' ho'
    obtain rfl := Option.some.inj (ho.symm.trans ho')
    by_cases hfrom : m.pubkey ≠ o.customerPubkey
    · rw [if_pos hfrom]
      refine ⟨hskip, rfl, fun is => ?_⟩
      constructor
      · intro hheld
        exact .inl hheld
      · rintro (hheld | ⟨hma, -⟩)
        · exact hheld
        · rw [hma] at hfrom
          exact absurd hcust.symm hfrom
    · rw [if_neg hfrom]
      have hma : m = a := by
        refine hm.resolve_right fun hother => hfrom ?_
        rw [hcust]
        exact hother
      by_cases hmine : track.forMe o = true
      · rw [if_pos hmine]
        refine ⟨⟨hskip.customer, hskip.empty, hskip.count, hskip.buffered, hskip.waiting, ?_, h.kept⟩,
          rfl, fun is => ?_⟩
        · intro m' hm'
          rcases List.mem_append.mp hm' with hm' | hm'
          · exact h.judged m' hm'
          · exact (List.mem_singleton.mp hm').trans hma
        · constructor
          · intro _
            exact .inr ⟨hma, hmine⟩
          · intro _
            exact .inr (.inl (List.mem_append_right _ (List.mem_singleton.mpr hma.symm)))
      · rw [if_neg hmine]
        refine ⟨hskip, rfl, fun is => ?_⟩
        constructor
        · intro hheld
          exact .inl hheld
        · rintro (hheld | ⟨-, hwhen⟩)
          · exact hheld
          · exact absurd hwhen hmine

/-- **One judgement, of the customer's message or of somebody else's.** -/
theorem DeliveryInv.judge (track : ClientTrack) (h : DeliveryInv a account n d) (hm : m = a ∨ m.pubkey ≠ a.pubkey) :
    DeliveryInv a account (n + 1) (judgeAccount track m d) ∧
      (judgeAccount track m d).order = d.order ∧
      ∀ is, Held track a account (judgeAccount track m d) is ↔
        Held track a account d is ∨ (m = a ∧ Keeps track d.order n is) := by
  rcases Option.eq_none_or_eq_some d.order with ho | ⟨o, ho⟩
  · have hj := h.judge_none track ho hm
    rw [← ho] at hj
    exact hj
  · have hj := h.judge_some track ho hm
    rw [← ho] at hj
    exact hj

/-- Judging a whole buffer when the order is there. -/
theorem DeliveryInv.judgeAll (track : ClientTrack) (ms : List RelayEvent) : ∀ (n : ℕ) (d : SponsorDevice),
    DeliveryInv a account n d → d.order = some o → (∀ m ∈ ms, m = a ∨ m.pubkey ≠ a.pubkey) →
      ∃ n', DeliveryInv a account n' (ms.foldl (fun d m => judgeAccount track m d) d) ∧
        (ms.foldl (fun d m => judgeAccount track m d) d).order = some o ∧
        ∀ is, Held track a account (ms.foldl (fun d m => judgeAccount track m d) d) is ↔
          Held track a account d is ∨ (a ∈ ms ∧ track.forMe o = true) := by
  induction ms with
  | nil =>
    intro n d h ho _
    refine ⟨n, h, ho, fun is => ?_⟩
    simp
  | cons m ms ih =>
    intro n d h ho hms
    obtain ⟨hinv, horder, hheld⟩ := h.judge track (hms m List.mem_cons_self)
    obtain ⟨n', hinv', horder', hheld'⟩ := ih (n + 1) (judgeAccount track m d) hinv
      (horder.trans ho) fun m' hm' => hms m' (List.mem_cons_of_mem _ hm')
    refine ⟨n', hinv', horder', fun is => ?_⟩
    rw [List.foldl_cons, hheld' is, hheld is, ho]
    show (Held track a account d is ∨ (m = a ∧ track.forMe o = true)) ∨ _ ↔ _
    rw [List.mem_cons]
    constructor
    · rintro ((hd | ⟨hma, hmine⟩) | ⟨hmem, hmine⟩)
      · exact .inl hd
      · exact .inr ⟨.inl hma.symm, hmine⟩
      · exact .inr ⟨.inr hmem, hmine⟩
    · rintro (hd | ⟨ham | hmem, hmine⟩)
      · exact .inl (.inl hd)
      · exact .inl (.inr ⟨ham.symm, hmine⟩)
      · exact .inr ⟨hmem, hmine⟩

/-- Storing an order event and judging what was buffered. -/
theorem DeliveryInv.drain (track : ClientTrack) (h : DeliveryInv a account n d) (hc : o.customerPubkey = a.pubkey) :
    DeliveryInv a account n (drainBuffer track { d with order := some o }) ∧
      (drainBuffer track { d with order := some o }).order = some o ∧
      ∀ is, Held track a account (drainBuffer track { d with order := some o }) is ↔
        d.account = some account ∨ a ∈ d.opening ∨ (a ∈ d.awaitingOrder ∧ track.forMe o = true) := by
  have hstart : DeliveryInv a account n { d with order := some o, awaitingOrder := [] } := by
    refine ⟨?_, fun _ => rfl, (fun hn => by cases hn), (fun _ hm => by cases hm), h.waiting, h.judged,
      h.kept⟩
    intro o' ho'
    obtain rfl := Option.some.inj ho'
    exact hc
  obtain ⟨n', hinv, horder, hheld⟩ :=
    DeliveryInv.judgeAll track d.awaitingOrder n _ hstart rfl h.buffered
  have hne : (d.awaitingOrder.foldl (fun d m => judgeAccount track m d)
      { d with order := some o, awaitingOrder := [] }).order ≠ none := by
    rw [horder]
    exact Option.some_ne_none o
  refine ⟨hinv.recount hne n, horder, fun is => ?_⟩
  show Held track a account (d.awaitingOrder.foldl (fun d m => judgeAccount track m d) _) is ↔ _
  rw [hheld is]
  constructor
  · rintro ((hacc | hop | ⟨hin, -⟩) | hbuf)
    · exact .inl hacc
    · exact .inr (.inl hop)
    · cases hin
    · exact .inr (.inr hbuf)
  · rintro (hacc | hop | hbuf)
    · exact .inl (.inl hacc)
    · exact .inl (.inr (.inl hop))
    · exact .inr hbuf

/-- The handlers store the event that `upsert` lets through; the on-chain one may return at once. -/
theorem handleOrder_cases (track : ClientTrack) (o : OrderView) (d : SponsorDevice) :
    handleOrder track o d = drainBuffer track { d with order := track.upsert d.order o } ∨
      (handleOrder track o d = d ∧ d.order ≠ none ∧ track.upsert d.order o = d.order) := by
  unfold handleOrder
  split
  · rename_i tag me old ho
    rw [ho]
    simp only [ClientTrack.upsert]
    split
    · exact .inl rfl
    · exact .inr ⟨rfl, Option.some_ne_none old, rfl⟩
  · exact .inl rfl

/-- **An order event, on either track.** -/
theorem DeliveryInv.order (track : ClientTrack) (h : DeliveryInv a account n d) (hc : o.customerPubkey = a.pubkey) :
    DeliveryInv a account n (handleOrder track o d) ∧
      (handleOrder track o d).order = track.upsert d.order o ∧
      ∀ is, Held track a account (handleOrder track o d) is ↔
        d.account = some account ∨ a ∈ d.opening ∨
          (a ∈ d.awaitingOrder ∧ d.order = none ∧ track.forMe o = true) := by
  -- the order that is stored is the new one or an older one of the same customer
  have hstored : ∃ o', track.upsert d.order o = some o' ∧ o'.customerPubkey = a.pubkey ∧
      (d.order = none → o' = o) := by
    rcases Option.eq_none_or_eq_some d.order with hd | ⟨old, hd⟩
    · rw [hd]
      exact ⟨o, rfl, hc, fun _ => rfl⟩
    · have hold := h.customer old hd
      rw [hd]
      simp only [ClientTrack.upsert]
      split
      · exact ⟨o, rfl, hc, fun _ => rfl⟩
      · exact ⟨old, rfl, hold, fun hn => by cases hn⟩
  have hempty : d.order ≠ none → a ∉ d.awaitingOrder := by
    intro hne
    rw [h.empty hne]
    exact List.not_mem_nil
  rcases handleOrder_cases track o d with hrun | ⟨hrun, hne, hsame⟩
  · obtain ⟨o', hup, ho', hfirst⟩ := hstored
    rw [hrun, hup]
    obtain ⟨hinv, horder, hheld⟩ := h.drain track ho'
    refine ⟨hinv, horder, fun is => ?_⟩
    rw [hheld is]
    constructor
    · rintro (hacc | hop | ⟨hin, hmine⟩)
      · exact .inl hacc
      · exact .inr (.inl hop)
      · have hnone : d.order = none := by
          by_contra hne
          exact hempty hne hin
        rw [hfirst hnone] at hmine
        exact .inr (.inr ⟨hin, hnone, hmine⟩)
    · rintro (hacc | hop | ⟨hin, hnone, hmine⟩)
      · exact .inl hacc
      · exact .inr (.inl hop)
      · rw [← hfirst hnone] at hmine
        exact .inr (.inr ⟨hin, hmine⟩)
  · rw [hrun, hsame]
    refine ⟨h, rfl, fun is => ?_⟩
    constructor
    · rintro (hacc | hop | ⟨hin, -⟩)
      · exact .inl hacc
      · exact .inr (.inl hop)
      · exact absurd hin (hempty hne)
    · rintro (hacc | hop | ⟨hin, -⟩)
      · exact .inl hacc
      · exact .inr (.inl hop)
      · exact absurd hin (hempty hne)

/-! ### Whole schedules -/

/-- The order events of the schedule are of the customer `a` comes from, and `a` is the only account
message of that customer. -/
def Legitimate (track : ClientTrack) (a : RelayEvent) (is : List SponsorInput) : Prop :=
  (∀ e o, .order e ∈ is → track.view e = some o → o.customerPubkey = a.pubkey) ∧
    ∀ m, .message m ∈ is → m = a ∨ m.pubkey ≠ a.pubkey

theorem Legitimate.tail (h : Legitimate track a (i :: is)) : Legitimate track a is :=
  ⟨fun e o he => h.1 e o (List.mem_cons_of_mem _ he), fun m hm => h.2 m (List.mem_cons_of_mem _ hm)⟩

/-- An input that is no order event leaves the first order event to come as it is. -/
theorem held_skip (h : track.orderOf i = none) :
    Held track a account d (i :: is) ↔ Held track a account d is := by
  unfold Held
  rw [List.filterMap_cons, h]

/-- A judgement, at once or after an await, within a schedule. -/
theorem DeliveryInv.judge_step {arrived : List RelayEvent} (h : DeliveryInv a account n d)
    (harr : ∀ m ∈ arrived, m = a ∨ m.pubkey ≠ a.pubkey) (hm : m = a ∨ m.pubkey ≠ a.pubkey)
    (hord : track.orderOf i = none) (hj : track.judges i = some m) :
    DeliveryInv a account (n + 1) (judgeAccount track m { d with arrived := arrived }) ∧
      (Held track a account d (i :: is) ∨ InTimeFrom track d.order n a (i :: is) ↔
        Held track a account (judgeAccount track m { d with arrived := arrived }) is ∨
          InTimeFrom track (judgeAccount track m { d with arrived := arrived }).order (n + 1) a is) := by
  have h₀ : DeliveryInv a account n { d with arrived := arrived } :=
    ⟨h.customer, h.empty, h.count, h.buffered, harr, h.judged, h.kept⟩
  obtain ⟨hinv, horder, hheld⟩ := h₀.judge track hm
  refine ⟨hinv, ?_⟩
  rw [hheld is, horder, held_skip hord, inTimeFrom_cons, hord, hj]
  have hma : some m = some a ↔ m = a := by simp
  have hsame : Held track a account { d with arrived := arrived } is ↔ Held track a account d is :=
    Iff.rfl
  rw [hma, hsame, or_assoc]
  rfl

/-- **One step of a schedule**: what is held, or will be judged in time, stays so. -/
theorem DeliveryInv.step (h : DeliveryInv a account n d) (hopen : openAccount a = some account)
    (hleg : Legitimate track a (i :: is))
    (hs : SponsorDevice.step track orderId openAccount d i = some d') :
    ∃ n', DeliveryInv a account n' d' ∧
      (Held track a account d (i :: is) ∨ InTimeFrom track d.order n a (i :: is) ↔
        Held track a account d' is ∨ InTimeFrom track d'.order n' a is) := by
  cases i with
  | order e =>
    simp only [SponsorDevice.step] at hs
    cases hv : track.view e with
    | none =>
      rw [hv] at hs
      cases hs
    | some o =>
      simp only [hv] at hs
      split at hs
      · obtain rfl := Option.some.inj hs
        have hord : track.orderOf (.order e) = some o := hv
        have hj : track.judges (.order e) = none := rfl
        obtain ⟨hinv, horder, hheld⟩ :=
          h.order track (hleg.1 e o List.mem_cons_self hv)
        refine ⟨n, hinv, ?_⟩
        rw [hheld is, horder, inTimeFrom_cons, hord, hj]
        have hnow : Held track a account d (.order e :: is) ↔ d.account = some account ∨
            a ∈ d.opening ∨ (a ∈ d.awaitingOrder ∧ d.order = none ∧ track.forMe o = true) := by
          unfold Held
          rw [List.filterMap_cons, hord]
          simp
        have hnever : ¬ ((none : Option RelayEvent) = some a ∧ Keeps track d.order n is) := by
          rintro ⟨hn, -⟩
          cases hn
        rw [hnow, or_iff_right hnever]
        rfl
      · cases hs
  | message m =>
    have hm := hleg.2 m List.mem_cons_self
    simp only [SponsorDevice.step] at hs
    split at hs
    · cases hs
    · split at hs
      · rename_i hwaits
        obtain rfl := Option.some.inj hs
        have hj : track.judges (.message m) = none := if_pos hwaits
        refine ⟨n, ⟨h.customer, h.empty, h.count, h.buffered, ?_, h.judged, h.kept⟩, ?_⟩
        · intro m' hm'
          rcases List.mem_append.mp hm' with hm' | hm'
          · exact h.waiting m' hm'
          · rw [List.mem_singleton.mp hm']
            exact hm
        · rw [held_skip rfl, inTimeFrom_cons, hj]
          have hnever : ¬ ((none : Option RelayEvent) = some a ∧ Keeps track d.order n is) := by
            rintro ⟨hn, -⟩
            cases hn
          rw [or_iff_right hnever]
          rfl
      · rename_i hwaits
        obtain rfl := Option.some.inj hs
        have hj : track.judges (.message m) = some m := if_neg hwaits
        exact ⟨n + 1, h.judge_step h.waiting hm rfl hj⟩
  | judge m =>
    simp only [SponsorDevice.step] at hs
    split at hs
    · rename_i hmem
      obtain rfl := Option.some.inj hs
      refine ⟨n + 1, h.judge_step ?_ (h.waiting m hmem) rfl rfl⟩
      intro m' hm'
      exact h.waiting m' (List.mem_of_mem_erase hm')
    · cases hs
  | opened m =>
    simp only [SponsorDevice.step] at hs
    split at hs
    · rename_i hmem
      obtain rfl := Option.some.inj hs
      obtain rfl := h.judged m hmem
      have hacc : d.account.or (openAccount m) = some account := by
        rcases h.kept with hk | hk
        · rw [hk, hopen, Option.none_or]
        · rw [hk, Option.some_or]
      refine ⟨n, ⟨h.customer, h.empty, h.count, h.buffered, h.waiting, ?_, .inr hacc⟩, ?_⟩
      · intro m' hm'
        exact h.judged m' (List.mem_of_mem_erase hm')
      · constructor
        · intro _
          exact .inl (.inl hacc)
        · intro _
          exact .inl (.inr (.inl hmem))
    · cases hs

/-- A whole schedule. -/
theorem DeliveryInv.run (hopen : openAccount a = some account) :
    ∀ (is : List SponsorInput) (n : ℕ) (d : SponsorDevice), DeliveryInv a account n d →
      Legitimate track a is → (sponsorSystem track orderId openAccount).run d is = some d' →
        ∃ n', DeliveryInv a account n' d' ∧
          (Held track a account d is ∨ InTimeFrom track d.order n a is ↔ Held track a account d' []) := by
  intro is
  induction is with
  | nil =>
    intro n d h _ hrun
    obtain rfl := Option.some.inj hrun
    exact ⟨n, h, or_iff_left not_inTimeFrom_nil⟩
  | cons i is ih =>
    intro n d h hleg hrun
    rw [TransitionSystem.run, Option.bind_eq_some_iff] at hrun
    obtain ⟨u, hu, hrun⟩ := hrun
    obtain ⟨n₁, h₁, hiff₁⟩ := h.step hopen hleg hu
    obtain ⟨n', h', hiff'⟩ := ih n₁ u h₁ hleg.tail hrun
    exact ⟨n', h', hiff₁.trans hiff'⟩

/-- **The customer's account is kept exactly by the schedules that judge it in time.**  On either
track, for every schedule of the order events, of the one account message of the order's customer
and of any messages of others, with duplicates, once every await has ended: no other account is
kept, and the customer's is if and only if its message is judged when the stored order is for me, or
among the first ten, before the first order event, which then has to be for me. -/
theorem account_delivered_iff (hopen : openAccount a = some account) (hleg : Legitimate track a is)
    (hrun : (sponsorSystem track orderId openAccount).run ⟨none, [], [], [], none⟩ is = some d)
    (hended : d.opening = []) :
    (d.account = none ∨ d.account = some account) ∧
      (d.account = some account ↔ InTime track a is) := by
  have hstart : DeliveryInv a account 0 ⟨none, [], [], [], none⟩ :=
    ⟨(fun _ h => by cases h), fun _ => rfl, fun _ => rfl, (fun _ h => by cases h),
      (fun _ h => by cases h), (fun _ h => by cases h), .inl rfl⟩
  obtain ⟨n', h', hiff⟩ := DeliveryInv.run hopen is 0 _ hstart hleg hrun
  refine ⟨h'.kept, ?_⟩
  have hnone : ¬ Held track a account ⟨none, [], [], [], none⟩ is := by
    rintro (hacc | hop | ⟨hin, -⟩)
    · cases hacc
    · cases hop
    · cases hin
  rw [or_iff_right hnone] at hiff
  unfold InTime
  rw [hiff]
  constructor
  · intro hacc
    exact .inl hacc
  · rintro (hacc | hop | ⟨-, -, o, ho, -⟩)
    · exact hacc
    · rw [hended] at hop
      cases hop
    · cases ho

end Laws

/-! ## Two schedules that lose the account -/

/-- An on-chain order event of the sample order; `sponsor` is empty as long as there is none. -/
def sampleOnchainEvent (createdAt : ℚ) (state : String) (sponsor : List String) : RelayEvent :=
  ⟨state, "app", 38383, createdAt,
    [["t", "tag"], ["d", "ord1"], ["state", state], ["customer", "c"], ["network", "mainnet"],
      ["amount-sat", "1000"], "sponsor" :: sponsor], "", ""⟩

/-- An account message for the sample order. -/
def sampleAccountMessage (author : Pubkey) : RelayEvent :=
  ⟨author, author, 3838, 50, [["action", "account-info"], ["a", "38383:app:ord1"]], "", ""⟩

/-- Every message opens to the same account. -/
def sampleOpen (_ : RelayEvent) : Option AccountInfo := some ⟨"bank", "110", "name"⟩

/-- On-chain, the account comes before the order events of two successive versions, the first of
which has no sponsor yet. -/
def earlyAccount : List SponsorInput :=
  [.message (sampleAccountMessage "c"), .judge (sampleAccountMessage "c"),
    .order (sampleOnchainEvent 10 "listed" []), .order (sampleOnchainEvent 20 "presigned" ["me"])]

/-- On the lightning track, ten messages of somebody else come first. -/
def floodedBuffer : List SponsorInput :=
  List.replicate 10 (.message (sampleAccountMessage "x")) ++
    [.message (sampleAccountMessage "c"), .order (sampleOnchainEvent 10 "invoiced" ["me"])]

/-- Both lose the account: every await has ended, the order names me, and nothing is kept. -/
theorem early_account_lost :
    ((sponsorSystem (.onchain "tag" "me") "ord1" sampleOpen).run ⟨none, [], [], [], none⟩
      earlyAccount).map (fun d => (d.order.bind (·.sponsorPubkey), d.arrived, d.opening, d.account)) =
        some (some "me", [], [], none) ∧
    ((sponsorSystem (.lightning "app") "ord1" sampleOpen).run ⟨none, [], [], [], none⟩
      floodedBuffer).map (fun d => (d.order.bind (·.sponsorPubkey), d.arrived, d.opening, d.account)) =
        some (some "me", [], [], none) := by
  constructor
  · decide +kernel
  · decide +kernel

/-- The account that comes after the order that names me. -/
def lateAccount : List SponsorInput :=
  [.order (sampleOnchainEvent 10 "listed" []), .order (sampleOnchainEvent 20 "presigned" ["me"]),
    .message (sampleAccountMessage "c"), .judge (sampleAccountMessage "c"),
    .opened (sampleAccountMessage "c")]

theorem account_delivered_iff_sample : ∃ d,
    (sponsorSystem (.onchain "tag" "me") "ord1" sampleOpen).run ⟨none, [], [], [], none⟩
      lateAccount = some d ∧
    (d.account = some ⟨"bank", "110", "name"⟩ ↔
      InTime (.onchain "tag" "me") (sampleAccountMessage "c") lateAccount) := by
  have hrun : ((sponsorSystem (.onchain "tag" "me") "ord1" sampleOpen).run ⟨none, [], [], [], none⟩
      lateAccount).map (·.opening) = some [] := by
    decide +kernel
  obtain ⟨d, hd, hopening⟩ := Option.map_eq_some_iff.mp hrun
  have hviews : ∀ e ∈ [sampleOnchainEvent 10 "listed" [], sampleOnchainEvent 20 "presigned" ["me"]],
      ((ClientTrack.onchain "tag" "me").view e).map OrderView.customerPubkey = some "c" := by
    decide +kernel
  have hleg : Legitimate (.onchain "tag" "me") (sampleAccountMessage "c") lateAccount := by
    constructor
    · intro e o he hv
      have hmem : e ∈ [sampleOnchainEvent 10 "listed" [], sampleOnchainEvent 20 "presigned" ["me"]] := by
        simpa [lateAccount] using he
      have hc := hviews e hmem
      rw [hv, Option.map_some] at hc
      exact Option.some.inj hc
    · intro m hm
      exact .inl (by simpa [lateAccount] using hm)
  exact ⟨d, hd, (account_delivered_iff rfl hleg hd hopening).2⟩

end LnPay
