/-
# The account gate on the customer's device (`customer/src/buyer/nostr/service.ts`,
`customer/src/buyer/order-store.ts`, `customer/src/nostr/own-requests.ts`)

The record of an order is overlaid with every order event that arrives, in the
order of arrival; the public order book next to it keeps the newest event only:

  event ─→ buyer store:   overlay, absent fields kept, no look at the version
        └→ sponsor store: kept if it is newer

The account goes out by itself when the overlay says that the order is invoiced.
`Consistent` says which arrivals keep the overlay equal to the newest event.
-/
import LnPay.ClientEvents

namespace LnPay

/-! ## The buyer store -/

/-- `CustomerOrder`, as far as the handlers read and write it. -/
structure CustomerOrder where
  fixedAccountInfo : Option AccountInfo
  adminState : Option String
  bolt11 : Option String
  sponsorPubkey : Option Pubkey
  retainUntil : Option ℕ
  closeReason : Option String
  accountInfo : Option AccountInfo
  deriving DecidableEq

/-- A record that no event has been laid over. -/
def CustomerOrder.fresh (fixedAccountInfo : Option AccountInfo) : CustomerOrder :=
  ⟨fixedAccountInfo, none, none, none, none, none, none⟩

/-- `changed` of `applyAdminUpdate`. -/
def CustomerOrder.changedBy (o : CustomerOrder) (u : AdminOrderUpdate) : Bool :=
  o.adminState ≠ some u.adminState || (u.bolt11 ≠ none && o.bolt11 ≠ u.bolt11) ||
    (u.sponsorPubkey ≠ none && o.sponsorPubkey ≠ u.sponsorPubkey) ||
    (u.retainUntil ≠ none && o.retainUntil ≠ u.retainUntil) ||
    (u.closeReason ≠ none && o.closeReason ≠ u.closeReason)

/-- `applyAdminUpdate`: a field that the event does not name is kept. -/
def applyAdminUpdate (u : AdminOrderUpdate) (o : CustomerOrder) : CustomerOrder :=
  if o.changedBy u then
    { o with
      adminState := some u.adminState
      bolt11 := u.bolt11.or o.bolt11
      sponsorPubkey := u.sponsorPubkey.or o.sponsorPubkey
      retainUntil := u.retainUntil.or o.retainUntil
      closeReason := u.closeReason.or o.closeReason }
  else o

theorem or_of_unchanged {α : Type} [DecidableEq α] {x y : Option α}
    (h : (x ≠ none && y ≠ x) = false) : x.or y = y := by
  cases x with
  | none => rfl
  | some a => simpa using (by simpa using h : y = some a).symm

/-- What the update leaves in the fields that matter here. -/
theorem applyAdminUpdate_fields (u : AdminOrderUpdate) (o : CustomerOrder) :
    (applyAdminUpdate u o).adminState = some u.adminState ∧
      (applyAdminUpdate u o).sponsorPubkey = u.sponsorPubkey.or o.sponsorPubkey ∧
      (applyAdminUpdate u o).closeReason = u.closeReason.or o.closeReason := by
  unfold applyAdminUpdate
  split
  · exact ⟨rfl, rfl, rfl⟩
  · rename_i h
    simp only [CustomerOrder.changedBy, Bool.not_eq_true, Bool.or_eq_false_iff] at h
    obtain ⟨⟨⟨⟨hstate, -⟩, hsponsor⟩, -⟩, hreason⟩ := h
    exact ⟨by simpa using hstate, (or_of_unchanged hsponsor).symm, (or_of_unchanged hreason).symm⟩

/-! ## The device -/

/-- An account on its way to a sponsor. -/
structure Publication where
  sponsor : Pubkey
  account : AccountInfo
  deriving DecidableEq

/-- The device, for one order: its record, the newest public event, an account that came before
the record, and the publication that is running.  `received` and `started` are written only: the
order events that arrived and the publications that were started by themselves. -/
structure BuyerDevice where
  order : Option CustomerOrder
  published : Option RelayEvent
  accountBeforeOrder : Option AccountInfo
  sending : Option Publication
  received : List RelayEvent
  started : List Publication

section Device

variable (appPubkey myPubkey : Pubkey) (orderId : String)

/-- `autoSendAccountInfo`, up to its first await. -/
def autoSendAccountInfo (d : BuyerDevice) : BuyerDevice :=
  match d.order with
  | none => d
  | some o =>
    match o.fixedAccountInfo, o.sponsorPubkey, o.accountInfo, d.sending with
    | some account, some sponsor, none, none =>
      if canSendAccountInfo o.adminState then
        { d with sending := some ⟨sponsor, account⟩, started := d.started ++ [⟨sponsor, account⟩] }
      else d
    | _, _, _, _ => d

/-- `handleAdminOrder` of the customer role. -/
def handleBuyerOrder (u : AdminOrderUpdate) (d : BuyerDevice) : BuyerDevice :=
  let d' := { d with order := d.order.map (applyAdminUpdate u) }
  match u.adminState = "invoiced" && u.sponsorPubkey.isSome, d'.order with
  | true, some o =>
    if o.fixedAccountInfo.isSome && o.accountInfo.isNone then autoSendAccountInfo d' else d'
  | _, _ => d'

/-- `upsertOrder` of the sponsor role, which keeps the newest event. -/
def upsertPublished (e : RelayEvent) : Option RelayEvent → Option RelayEvent
  | none => some e
  | some old => if e.createdAt ≤ old.createdAt then some old else some e

/-- `setAccountInfo`. -/
def BuyerDevice.setAccount (d : BuyerDevice) (account : AccountInfo) : BuyerDevice :=
  { d with order := d.order.map fun o => { o with accountInfo := some account } }

/-- What happens on the device. -/
inductive BuyerInput
  | add (fixedAccountInfo : Option AccountInfo)
  | restore
  | deliver (e : RelayEvent)
  | sendAccountInfoNow
  | attach (account : AccountInfo)
  | sent (success : Bool)
  | ownAccount (account : AccountInfo)

/-- `restore` of the own requests: the record is made anew, and the public order laid over it. -/
def restoreOrder (d : BuyerDevice) : BuyerDevice :=
  match d.order with
  | some _ => d
  | none =>
    let fresh := { d with order := some (.fresh none) }
    let shown := match d.published.bind (parseAdminEvent appPubkey myPubkey) with
      | some u => handleBuyerOrder u fresh
      | none => fresh
    match d.accountBeforeOrder with
    | some account => { shown.setAccount account with accountBeforeOrder := none }
    | none => shown

/-- One step; `none` when it cannot be taken now.  The id of an order is drawn before the order is
requested, so that no event of it has arrived when it is added. -/
def BuyerDevice.step (d : BuyerDevice) : BuyerInput → Option BuyerDevice
  | .add fixedAccountInfo =>
    match d.order, d.published with
    | none, none => some { d with order := some (.fresh fixedAccountInfo) }
    | _, _ => none
  | .restore => some (restoreOrder appPubkey myPubkey d)
  | .deliver e =>
    match parseAdminEvent appPubkey myPubkey e with
    | none => none
    | some u =>
      if u.orderId = orderId then
        some { handleBuyerOrder u d with
          published := upsertPublished e d.published
          received := d.received ++ [e] }
      else none
  | .sendAccountInfoNow => some (autoSendAccountInfo d)
  | .attach account =>
    some { d with order := d.order.map fun o => { o with fixedAccountInfo := some account } }
  | .sent success =>
    match d.sending with
    | none => none
    | some p =>
      if success then some { d.setAccount p.account with sending := none }
      else some { d with sending := none }
  | .ownAccount account =>
    match d.order with
    | none => some { d with accountBeforeOrder := some account }
    | some o => if o.accountInfo.isNone then some (d.setAccount account) else some d

/-- The device that knows nothing of the order yet. -/
def buyerSystem : TransitionSystem BuyerDevice BuyerInput where
  init d := d = ⟨none, none, none, none, [], []⟩
  step := BuyerDevice.step appPubkey myPubkey orderId

/-! ## Following the newest event -/

/-- The record shows state, reason and sponsor of the newest event. -/
structure Shows (o : CustomerOrder) (newest : Option RelayEvent) : Prop where
  adminState : o.adminState =
    (newest.bind (parseAdminEvent appPubkey myPubkey)).map AdminOrderUpdate.adminState
  closeReason : o.closeReason =
    (newest.bind (parseAdminEvent appPubkey myPubkey)).bind AdminOrderUpdate.closeReason
  sponsorPubkey : o.sponsorPubkey =
    (newest.bind (parseAdminEvent appPubkey myPubkey)).bind AdminOrderUpdate.sponsorPubkey

/-- An event that arrives after `v`, the newest so far, does not mislead the overlay: a newer one
names a reason and a sponsor if `v` does, another one says nothing that `v` does not say. -/
def AdminOrderUpdate.AgreesAfter (u v : AdminOrderUpdate) (newer : Bool) : Prop :=
  if newer then
    (u.closeReason = none → v.closeReason = none) ∧ (u.sponsorPubkey = none → v.sponsorPubkey = none)
  else
    u.adminState = v.adminState ∧ (u.closeReason ≠ none → u.closeReason = v.closeReason) ∧
      (u.sponsorPubkey ≠ none → u.sponsorPubkey = v.sponsorPubkey)

/-- Once there is a record, every event that arrives agrees with the newest one before it. -/
def Consistent (d : BuyerDevice) : BuyerInput → Prop
  | .deliver e => d.order ≠ none → ∀ n u v, d.published = some n →
      parseAdminEvent appPubkey myPubkey e = some u → parseAdminEvent appPubkey myPubkey n = some v →
        u.AgreesAfter v (n.createdAt < e.createdAt)
  | _ => True

end Device

section Laws

variable {appPubkey myPubkey : Pubkey} {orderId : String} {d d' : BuyerDevice} {i : BuyerInput}
  {o : CustomerOrder} {e n : RelayEvent} {u v : AdminOrderUpdate}

theorem or_eq_right_iff {α : Type} {x y : Option α} : x.or y = y ↔ (x ≠ none → x = y) := by
  cases x with
  | none => simp
  | some a => simp

theorem or_eq_left_iff {α : Type} {x y : Option α} : x.or y = x ↔ (x = none → y = none) := by
  cases x with
  | none => simp
  | some a => simp

/-- The overlay follows the newest event through an arrival exactly if the arrival agrees. -/
theorem shows_applyAdminUpdate_iff (h : Shows appPubkey myPubkey o (some n))
    (hu : parseAdminEvent appPubkey myPubkey e = some u)
    (hv : parseAdminEvent appPubkey myPubkey n = some v) :
    Shows appPubkey myPubkey (applyAdminUpdate u o) (upsertPublished e (some n)) ↔
      u.AgreesAfter v (n.createdAt < e.createdAt) := by
  obtain ⟨hstate, hsponsor, hreason⟩ := applyAdminUpdate_fields u o
  have hor : o.closeReason = v.closeReason := by
    rw [h.closeReason, Option.bind_some, hv, Option.bind_some]
  have hos : o.sponsorPubkey = v.sponsorPubkey := by
    rw [h.sponsorPubkey, Option.bind_some, hv, Option.bind_some]
  unfold AdminOrderUpdate.AgreesAfter
  by_cases hnew : n.createdAt < e.createdAt
  · have hup : upsertPublished e (some n) = some e := by
      rw [upsertPublished, if_neg (not_le.mpr hnew)]
    rw [hup, if_pos (by simpa using hnew)]
    constructor
    · intro hs
      have hr := hs.closeReason
      have hp := hs.sponsorPubkey
      rw [hreason, hor, Option.bind_some, hu, Option.bind_some] at hr
      rw [hsponsor, hos, Option.bind_some, hu, Option.bind_some] at hp
      exact ⟨or_eq_left_iff.mp hr, or_eq_left_iff.mp hp⟩
    · rintro ⟨hr, hp⟩
      constructor
      · rw [hstate, Option.bind_some, hu, Option.map_some]
      · rw [hreason, hor, Option.bind_some, hu, Option.bind_some, or_eq_left_iff.mpr hr]
      · rw [hsponsor, hos, Option.bind_some, hu, Option.bind_some, or_eq_left_iff.mpr hp]
  · have hup : upsertPublished e (some n) = some n := by
      rw [upsertPublished, if_pos (not_lt.mp hnew)]
    rw [hup, if_neg (by simpa using hnew)]
    constructor
    · intro hs
      have hst := hs.adminState
      have hr := hs.closeReason
      have hp := hs.sponsorPubkey
      rw [hstate, Option.bind_some, hv, Option.map_some] at hst
      rw [hreason, hor, Option.bind_some, hv, Option.bind_some] at hr
      rw [hsponsor, hos, Option.bind_some, hv, Option.bind_some] at hp
      exact ⟨Option.some.inj hst, or_eq_right_iff.mp hr, or_eq_right_iff.mp hp⟩
    · rintro ⟨hst, hr, hp⟩
      constructor
      · rw [hstate, Option.bind_some, hv, Option.map_some, hst]
      · rw [hreason, hor, Option.bind_some, hv, Option.bind_some, or_eq_right_iff.mpr hr]
      · rw [hsponsor, hos, Option.bind_some, hv, Option.bind_some, or_eq_right_iff.mpr hp]

/-- The first event that is laid over a record is what the record shows. -/
theorem shows_first (fixed : Option AccountInfo) (h : Shows appPubkey myPubkey o none)
    (hu : parseAdminEvent appPubkey myPubkey e = some u) :
    Shows appPubkey myPubkey (applyAdminUpdate u o) (some e) ∧
      Shows appPubkey myPubkey (CustomerOrder.fresh fixed) none := by
  obtain ⟨hstate, hsponsor, hreason⟩ := applyAdminUpdate_fields u o
  have hor : o.closeReason = none := h.closeReason
  have hos : o.sponsorPubkey = none := h.sponsorPubkey
  refine ⟨⟨?_, ?_, ?_⟩, rfl, rfl, rfl⟩
  · rw [hstate, Option.bind_some, hu, Option.map_some]
  · rw [hreason, hor, Option.or_none, Option.bind_some, hu, Option.bind_some]
  · rw [hsponsor, hos, Option.or_none, Option.bind_some, hu, Option.bind_some]

/-- What holds of the device as long as every arrival agrees. -/
structure BuyerInv (appPubkey myPubkey : Pubkey) (d : BuyerDevice) : Prop where
  shows : ∀ o, d.order = some o → Shows appPubkey myPubkey o d.published
  parsed : ∀ n, d.published = some n → ∃ v, parseAdminEvent appPubkey myPubkey n = some v
  newest : ∀ n, d.published = some n → n ∈ d.received ∧ ∀ e ∈ d.received, e.createdAt ≤ n.createdAt
  unheard : d.published = none → d.received = []

/-! ### Starting a publication -/

/-- Starting a publication changes nothing else; it starts one to the sponsor of the record, in a
state of the record in which the account may go out. -/
theorem autoSendAccountInfo_spec (d : BuyerDevice) :
    (autoSendAccountInfo d).order = d.order ∧ (autoSendAccountInfo d).published = d.published ∧
      (autoSendAccountInfo d).received = d.received ∧
      ((autoSendAccountInfo d).started = d.started ∨ ∃ o p, d.order = some o ∧
        (autoSendAccountInfo d).started = d.started ++ [p] ∧ o.sponsorPubkey = some p.sponsor ∧
        canSendAccountInfo o.adminState = true) := by
  unfold autoSendAccountInfo
  split
  · exact ⟨rfl, rfl, rfl, .inl rfl⟩
  · rename_i o ho
    split
    · rename_i account sponsor _ hsponsor _ _
      split
      · rename_i hcan
        exact ⟨rfl, rfl, rfl, .inr ⟨o, ⟨sponsor, account⟩, ho, rfl, hsponsor, hcan⟩⟩
      · exact ⟨rfl, rfl, rfl, .inl rfl⟩
    · exact ⟨rfl, rfl, rfl, .inl rfl⟩

theorem handleBuyerOrder_spec (u : AdminOrderUpdate) (d : BuyerDevice) :
    (handleBuyerOrder u d).order = d.order.map (applyAdminUpdate u) ∧
      (handleBuyerOrder u d).published = d.published ∧
      (handleBuyerOrder u d).received = d.received ∧
      ((handleBuyerOrder u d).started = d.started ∨ ∃ o p, d.order.map (applyAdminUpdate u) = some o ∧
        (handleBuyerOrder u d).started = d.started ++ [p] ∧ o.sponsorPubkey = some p.sponsor ∧
        canSendAccountInfo o.adminState = true) := by
  have hauto := autoSendAccountInfo_spec { d with order := d.order.map (applyAdminUpdate u) }
  unfold handleBuyerOrder
  simp only
  split
  · split
    · exact hauto
    · exact ⟨rfl, rfl, rfl, .inl rfl⟩
  · exact ⟨rfl, rfl, rfl, .inl rfl⟩

/-- A publication that is started is one that the newest event allows. -/
def Allowed (appPubkey myPubkey : Pubkey) (newest : Option RelayEvent) (p : Publication) : Prop :=
  ∃ n v, newest = some n ∧ parseAdminEvent appPubkey myPubkey n = some v ∧
    canSendAccountInfo (some v.adminState) = true ∧ v.sponsorPubkey = some p.sponsor

theorem Shows.allowed {newest : Option RelayEvent} {p : Publication}
    (h : Shows appPubkey myPubkey o newest) (hs : o.sponsorPubkey = some p.sponsor)
    (hcan : canSendAccountInfo o.adminState = true) : Allowed appPubkey myPubkey newest p := by
  rw [h.sponsorPubkey] at hs
  obtain ⟨v, hv, hsponsor⟩ := Option.bind_eq_some_iff.mp hs
  obtain ⟨n, hn, hparse⟩ := Option.bind_eq_some_iff.mp hv
  refine ⟨n, v, hn, hparse, ?_, hsponsor⟩
  rw [h.adminState, hv, Option.map_some] at hcan
  exact hcan

/-! ### Every step -/

/-- What a step starts. -/
def StartsAllowed (appPubkey myPubkey : Pubkey) (d d' : BuyerDevice) : Prop :=
  d'.started = d.started ∨
    ∃ p, d'.started = d.started ++ [p] ∧ Allowed appPubkey myPubkey d'.published p

/-- A change that touches neither the overlay nor the events keeps what is known. -/
theorem BuyerInv.keep (h : BuyerInv appPubkey myPubkey d)
    (ho : ∀ o', d'.order = some o' → ∃ o, d.order = some o ∧ o'.adminState = o.adminState ∧
      o'.closeReason = o.closeReason ∧ o'.sponsorPubkey = o.sponsorPubkey)
    (hp : d'.published = d.published) (hr : d'.received = d.received) :
    BuyerInv appPubkey myPubkey d' where
  shows o' ho' := by
    obtain ⟨o, horder, hstate, hreason, hsponsor⟩ := ho o' ho'
    have hs := h.shows o horder
    rw [hp]
    exact ⟨hstate.trans hs.adminState, hreason.trans hs.closeReason, hsponsor.trans hs.sponsorPubkey⟩
  parsed n hn := h.parsed n (hp ▸ hn)
  newest n hn := by
    rw [hr]
    exact h.newest n (hp ▸ hn)
  unheard hn := by
    rw [hr]
    exact h.unheard (hp ▸ hn)

theorem BuyerInv.setAccount (h : BuyerInv appPubkey myPubkey d) (account : AccountInfo) :
    BuyerInv appPubkey myPubkey (d.setAccount account) := by
  refine h.keep ?_ rfl rfl
  intro o' ho'
  obtain ⟨o, ho, rfl⟩ := Option.map_eq_some_iff.mp ho'
  exact ⟨o, ho, rfl, rfl, rfl⟩

/-- Delivering an event that agrees. -/
theorem BuyerInv.deliver (h : BuyerInv appPubkey myPubkey d)
    (hc : Consistent appPubkey myPubkey d (.deliver e))
    (hu : parseAdminEvent appPubkey myPubkey e = some u) :
    BuyerInv appPubkey myPubkey { handleBuyerOrder u d with
      published := upsertPublished e d.published, received := d.received ++ [e] } := by
  obtain ⟨horder, -, -, -⟩ := handleBuyerOrder_spec u d
  constructor
  · intro o' ho'
    have ho' : (handleBuyerOrder u d).order = some o' := ho'
    rw [horder] at ho'
    obtain ⟨o, ho, rfl⟩ := Option.map_eq_some_iff.mp ho'
    have hshows := h.shows o ho
    show Shows appPubkey myPubkey _ (upsertPublished e d.published)
    cases hp : d.published with
    | none =>
      rw [hp] at hshows
      exact (shows_first none hshows hu).1
    | some n =>
      rw [hp] at hshows
      obtain ⟨v, hv⟩ := h.parsed n hp
      refine (shows_applyAdminUpdate_iff hshows hu hv).mpr (hc ?_ n u v hp hu hv)
      rw [ho]
      exact Option.some_ne_none o
  · intro n hn
    have hn : upsertPublished e d.published = some n := hn
    cases hp : d.published with
    | none =>
      rw [hp] at hn
      obtain rfl := Option.some.inj hn
      exact ⟨u, hu⟩
    | some old =>
      rw [hp, upsertPublished] at hn
      split at hn
      · obtain rfl := Option.some.inj hn
        exact h.parsed _ hp
      · obtain rfl := Option.some.inj hn
        exact ⟨u, hu⟩
  · intro n hn
    have hn : upsertPublished e d.published = some n := hn
    show n ∈ d.received ++ [e] ∧ ∀ e' ∈ d.received ++ [e], e'.createdAt ≤ n.createdAt
    cases hp : d.published with
    | none =>
      rw [hp] at hn
      obtain rfl := Option.some.inj hn
      rw [h.unheard hp]
      refine ⟨List.mem_cons_self, ?_⟩
      intro e' he'
      rw [List.mem_singleton.mp he']
    | some old =>
      obtain ⟨hmem, hmax⟩ := h.newest old hp
      rw [hp, upsertPublished] at hn
      split at hn
      · rename_i hle
        obtain rfl := Option.some.inj hn
        refine ⟨List.mem_append_left _ hmem, ?_⟩
        intro e' he'
        rcases List.mem_append.mp he' with he' | he'
        · exact hmax e' he'
        · rw [List.mem_singleton.mp he']
          exact hle
      · rename_i hlt
        obtain rfl := Option.some.inj hn
        refine ⟨List.mem_append_right _ List.mem_cons_self, ?_⟩
        intro e' he'
        rcases List.mem_append.mp he' with he' | he'
        · exact (hmax e' he').trans (not_le.mp hlt).le
        · rw [List.mem_singleton.mp he']
  · intro hn
    have hn : upsertPublished e d.published = none := hn
    cases hp : d.published with
    | none =>
      rw [hp] at hn
      cases hn
    | some old =>
      rw [hp, upsertPublished] at hn
      split at hn <;> cases hn

/-- A record that is made anew shows the newest event. -/
theorem BuyerInv.restore (h : BuyerInv appPubkey myPubkey d) :
    BuyerInv appPubkey myPubkey (restoreOrder appPubkey myPubkey d) ∧
      StartsAllowed appPubkey myPubkey d (restoreOrder appPubkey myPubkey d) := by
  unfold restoreOrder
  split
  · exact ⟨h, .inl rfl⟩
  · rename_i hnone
    -- the record before an account that was sent from elsewhere is put into it
    have hshown : ∀ shown : BuyerDevice, (match d.published.bind (parseAdminEvent appPubkey myPubkey) with
          | some u => handleBuyerOrder u { d with order := some (.fresh none) }
          | none => { d with order := some (.fresh none) }) = shown →
        BuyerInv appPubkey myPubkey shown ∧ StartsAllowed appPubkey myPubkey d shown := by
      rintro _ rfl
      split
      · rename_i u hu
        obtain ⟨n, hn, hparse⟩ := Option.bind_eq_some_iff.mp hu
        have hfresh : Shows appPubkey myPubkey (CustomerOrder.fresh none) none := ⟨rfl, rfl, rfl⟩
        obtain ⟨horder, hpub, hrec, hstart⟩ :=
          handleBuyerOrder_spec u { d with order := some (.fresh none) }
        have hshows : Shows appPubkey myPubkey (applyAdminUpdate u (.fresh none)) d.published := by
          rw [hn]
          exact (shows_first none hfresh hparse).1
        constructor
        · refine ⟨?_, ?_, ?_, ?_⟩
          · intro o ho
            rw [horder] at ho
            obtain rfl := Option.some.inj ho
            rw [hpub]
            exact hshows
          · rw [hpub]
            exact h.parsed
          · rw [hpub, hrec]
            exact h.newest
          · rw [hpub, hrec]
            exact h.unheard
        · rcases hstart with hsame | ⟨o, p, ho, hp, hsponsor, hcan⟩
          · exact .inl hsame
          · obtain rfl := Option.some.inj ho
            refine .inr ⟨p, hp, ?_⟩
            rw [hpub]
            exact hshows.allowed hsponsor hcan
      · rename_i hu
        refine ⟨⟨?_, h.parsed, h.newest, h.unheard⟩, .inl rfl⟩
        intro o ho
        obtain rfl := Option.some.inj ho
        show Shows appPubkey myPubkey _ d.published
        constructor
        · rw [hu]
          rfl
        · rw [hu]
          rfl
        · rw [hu]
          rfl
    obtain ⟨hinv, hstart⟩ := hshown _ rfl
    simp only
    split
    · have hset := hinv.setAccount ‹AccountInfo›
      exact ⟨⟨hset.shows, hset.parsed, hset.newest, hset.unheard⟩, hstart⟩
    · exact ⟨hinv, hstart⟩

/-- **One step keeps the overlay on the newest event, and starts what that event allows.** -/
theorem BuyerInv.step (h : BuyerInv appPubkey myPubkey d) (hc : Consistent appPubkey myPubkey d i)
    (hs : BuyerDevice.step appPubkey myPubkey orderId d i = some d') :
    BuyerInv appPubkey myPubkey d' ∧ StartsAllowed appPubkey myPubkey d d' := by
  cases i with
  | add fixed =>
    simp only [BuyerDevice.step] at hs
    split at hs
    · rename_i hp
      obtain rfl := Option.some.inj hs
      refine ⟨⟨?_, h.parsed, h.newest, h.unheard⟩, .inl rfl⟩
      intro o ho
      obtain rfl := Option.some.inj ho
      show Shows appPubkey myPubkey _ d.published
      rw [hp]
      exact ⟨rfl, rfl, rfl⟩
    · cases hs
  | restore =>
    obtain rfl := Option.some.inj hs
    exact h.restore
  | deliver e =>
    simp only [BuyerDevice.step] at hs
    split at hs
    · cases hs
    · rename_i u hu
      split at hs
      · obtain rfl := Option.some.inj hs
        have hinv := h.deliver hc hu
        refine ⟨hinv, ?_⟩
        obtain ⟨horder, -, -, hstart⟩ := handleBuyerOrder_spec u d
        rcases hstart with hsame | ⟨o, p, ho, hp, hsponsor, hcan⟩
        · exact .inl hsame
        · exact .inr ⟨p, hp, (hinv.shows o (horder.trans ho)).allowed hsponsor hcan⟩
      · cases hs
  | sendAccountInfoNow =>
    obtain rfl := Option.some.inj hs
    obtain ⟨horder, hpub, hrec, hstart⟩ := autoSendAccountInfo_spec d
    constructor
    · refine h.keep ?_ hpub hrec
      intro o ho
      exact ⟨o, horder ▸ ho, rfl, rfl, rfl⟩
    · rcases hstart with hsame | ⟨o, p, ho, hp, hsponsor, hcan⟩
      · exact .inl hsame
      · refine .inr ⟨p, hp, ?_⟩
        rw [hpub]
        exact (h.shows o ho).allowed hsponsor hcan
  | attach account =>
    obtain rfl := Option.some.inj hs
    refine ⟨h.keep ?_ rfl rfl, .inl rfl⟩
    intro o' ho'
    obtain ⟨o, ho, rfl⟩ := Option.map_eq_some_iff.mp ho'
    exact ⟨o, ho, rfl, rfl, rfl⟩
  | sent success =>
    simp only [BuyerDevice.step] at hs
    split at hs
    · cases hs
    · rename_i p _
      split at hs
      · obtain rfl := Option.some.inj hs
        have hset := h.setAccount p.account
        exact ⟨⟨hset.shows, hset.parsed, hset.newest, hset.unheard⟩, .inl rfl⟩
      · obtain rfl := Option.some.inj hs
        exact ⟨⟨h.shows, h.parsed, h.newest, h.unheard⟩, .inl rfl⟩
  | ownAccount account =>
    simp only [BuyerDevice.step] at hs
    split at hs
    · obtain rfl := Option.some.inj hs
      exact ⟨⟨h.shows, h.parsed, h.newest, h.unheard⟩, .inl rfl⟩
    · split at hs
      · obtain rfl := Option.some.inj hs
        exact ⟨h.setAccount account, .inl rfl⟩
      · obtain rfl := Option.some.inj hs
        exact ⟨h, .inl rfl⟩

theorem buyerInv_of_reachable
    (hd : (buyerSystem appPubkey myPubkey orderId).ReachableBy (Consistent appPubkey myPubkey) d) :
    BuyerInv appPubkey myPubkey d := by
  refine TransitionSystem.invariant_by (P := BuyerInv appPubkey myPubkey) ?_ ?_ hd
  · rintro _ rfl
    refine ⟨(fun _ h => by cases h), (fun _ h => by cases h), (fun _ h => by cases h), fun _ => rfl⟩
  · intro a i b _ ha hc hs
    exact (ha.step hc hs).1

/-- **The device follows the newest event as long as every arrival agrees with it.**  In every run
whose arrivals do: the event the order book keeps is the newest one received; the record shows its
state, reason and sponsor; and a publication that a step starts by itself is to the sponsor that
the newest event names, in a state in which the account may go out. -/
theorem buyer_follows_newest
    (hd : (buyerSystem appPubkey myPubkey orderId).ReachableBy (Consistent appPubkey myPubkey) d) :
    ((d.published = none → d.received = []) ∧ ∀ n, d.published = some n → n ∈ d.received ∧
      ∀ e ∈ d.received, e.createdAt ≤ n.createdAt) ∧
    (∀ o, d.order = some o → Shows appPubkey myPubkey o d.published) ∧
    ∀ i d', Consistent appPubkey myPubkey d i →
      BuyerDevice.step appPubkey myPubkey orderId d i = some d' →
        StartsAllowed appPubkey myPubkey d d' := by
  have h := buyerInv_of_reachable hd
  refine ⟨⟨h.unheard, h.newest⟩, h.shows, ?_⟩
  intro i d' hc hs
  exact (h.step hc hs).2

end Laws

/-! ## A delayed event -/

/-- An event of the sample order, of that time and state, naming that sponsor. -/
def sampleOrderEvent (createdAt : ℚ) (state : String) (sponsor : String) : RelayEvent :=
  ⟨state, "app", 38383, createdAt,
    [["d", "ord1"], ["state", state], ["customer", "me"], ["sponsor", sponsor]], "", ""⟩

/-- The account that is fixed for the sample order. -/
def sampleAccount : AccountInfo := ⟨"bank", "110", "name"⟩

/-- In order, the overlay follows. -/
theorem buyer_follows_newest_sample : ∃ d,
    (buyerSystem "app" "me" "ord1").ReachableBy (Consistent "app" "me") d ∧
      d.started = [⟨"s", sampleAccount⟩] ∧
      ∀ o, d.order = some o → Shows "app" "me" o d.published := by
  let fresh : BuyerDevice := ⟨some (.fresh (some sampleAccount)), none, none, none, [], []⟩
  have hadd : (buyerSystem "app" "me" "ord1").ReachableBy (Consistent "app" "me") fresh :=
    .step (i := BuyerInput.add (some sampleAccount)) (.init rfl) trivial rfl
  have hrun : ((buyerSystem "app" "me" "ord1").step fresh
      (.deliver (sampleOrderEvent 10 "invoiced" "s"))).map (·.started) =
        some [⟨"s", sampleAccount⟩] := by
    decide +kernel
  obtain ⟨d, hd, hstarted⟩ := Option.map_eq_some_iff.mp hrun
  have hfirst : Consistent "app" "me" fresh (.deliver (sampleOrderEvent 10 "invoiced" "s")) := by
    intro _ n u v hn
    cases hn
  have hreach := TransitionSystem.ReachableBy.step hadd hfirst hd
  exact ⟨d, hreach, hstarted, (buyer_follows_newest hreach).2.1⟩

/-- The cancellation overtakes the registration of the invoice: the account goes out although the
newest event received says that the order is cancelled, and the record ends as invoiced. -/
theorem delayed_event_sends_account : ∃ d d',
    (buyerSystem "app" "me" "ord1").Reachable d ∧
      BuyerDevice.step "app" "me" "ord1" d (.deliver (sampleOrderEvent 10 "invoiced" "s")) = some d' ∧
      ¬ StartsAllowed "app" "me" d d' ∧ ∃ o, d'.order = some o ∧ ¬ Shows "app" "me" o d'.published := by
  let cancelled := sampleOrderEvent 20 "cancelled" "s"
  have hrun : ((buyerSystem "app" "me" "ord1").run ⟨none, none, none, none, [], []⟩
      [.add (some sampleAccount), .deliver cancelled]).isSome = true := by
    decide +kernel
  obtain ⟨d, hd⟩ := Option.isSome_iff_exists.mp hrun
  have hfacts : (((buyerSystem "app" "me" "ord1").run ⟨none, none, none, none, [], []⟩
      [.add (some sampleAccount), .deliver cancelled]).bind fun d =>
        (BuyerDevice.step "app" "me" "ord1" d (.deliver (sampleOrderEvent 10 "invoiced" "s"))).map
          fun d' => (d.started, d'.started, d'.published, d'.order.map (·.adminState))) =
      some ([], [⟨"s", sampleAccount⟩], some cancelled, some (some "invoiced")) := by
    decide +kernel
  rw [hd, Option.bind_some] at hfacts
  obtain ⟨d', hd', hvalues⟩ := Option.map_eq_some_iff.mp hfacts
  simp only [Prod.mk.injEq] at hvalues
  obtain ⟨hstarted, hstarted', hpublished, horder⟩ := hvalues
  -- what the newest event says
  have hnewest : (parseAdminEvent "app" "me" cancelled).map AdminOrderUpdate.adminState =
      some "cancelled" := by
    decide +kernel
  refine ⟨d, d', TransitionSystem.Reachable.run (.init rfl) hd, hd', ?_, ?_⟩
  · rintro (hsame | ⟨p, -, n, v, hn, hv, hcan, -⟩)
    · rw [hstarted, hstarted'] at hsame
      cases hsame
    · obtain rfl := Option.some.inj (hpublished.symm.trans hn)
      rw [hv, Option.map_some] at hnewest
      rw [hnewest] at hcan
      exact absurd hcan (by decide)
  · obtain ⟨o, ho, hstate⟩ := Option.map_eq_some_iff.mp horder
    refine ⟨o, ho, fun hshows => ?_⟩
    have hst := hshows.adminState
    rw [hstate, hpublished, Option.bind_some, hnewest] at hst
    exact absurd hst (by decide)

end LnPay
