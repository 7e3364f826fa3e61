/-
# Publishing orders (`daemon/src/ln/effects.ts`, `daemon/src/onchain/effects.ts`)

An order is published by an effect.  Every change of its row asks for one, in the
same transaction, unless one is pending.  The executor reads the row, sends it to
the relays, and what it has sent is recorded in one more transaction.

The daemon does one thing after the other, so that no row changes while an order
is being sent; but it may stop at any time, and start again.

A client takes what it receives in whatever order, and keeps the newest.
-/
import LnPay.LnStore
import LnPay.OcOrder
import LnPay.TransitionSystem
import Mathlib.Data.List.Pairwise
import Mathlib.Tactic.Linarith

namespace LnPay

/-! ## How long an event is kept -/

/-- `LN_TERMINAL_RETENTION_SEC`. -/
def lnTerminalRetentionSec : ℤ := 7 * 24 * 60 * 60

/-- `LN_ACTIVE_RETENTION_SEC`. -/
def lnActiveRetentionSec : ℤ := 30 * 24 * 60 * 60

/-- `lnRetention`. -/
def lnRetention (state : OrderState) (deadline nowSec : ℤ) : ℤ :=
  if state = .requested then deadline
  else if isTerminalState state then nowSec + lnTerminalRetentionSec
  else max deadline nowSec + lnActiveRetentionSec

/-- `ONCHAIN_EVENT_HORIZON_SEC`. -/
def onchainEventHorizonSec : ℤ := 70 * (24 * 60 * 60)

/-- `TERMINAL_GRACE_SEC`. -/
def terminalGraceSec : ℤ := 7 * (24 * 60 * 60)

/-- `onchainOrderEventExpiration`. -/
def onchainOrderEventExpiration (state : OnchainState) (listingExpiration : ℚ) (now : ℤ)
    (terminal : Bool) : ℚ :=
  if state = .listed then listingExpiration
  else if terminal then
    (if listingExpiration > now then listingExpiration else now + terminalGraceSec)
  else max listingExpiration (now + onchainEventHorizonSec)

/-- A track, as far as publishing goes: until when the relays keep the event of an order. -/
structure PublishTrack (Order : Type) where
  retainUntil : Order → ℤ → ℚ

/-- The Lightning track. -/
def lnPublish : PublishTrack LnOrderRow :=
  ⟨fun order createdAt => lnRetention order.state order.deadline createdAt⟩

/-- The on-chain track. -/
def ocPublish : PublishTrack OnchainOrder :=
  ⟨fun order createdAt => onchainOrderEventExpiration order.state order.expiration createdAt
    (isOnchainTerminal order.state)⟩

/-- Only an order that waits to be taken is not sent any more. -/
theorem lnPublish_lapsed {order : LnOrderRow} {c : ℤ} (h : lnPublish.retainUntil order c ≤ c) :
    order.state = .requested := by
  by_contra hs
  have hcast : (lnRetention order.state order.deadline c : ℚ) ≤ c := h
  have hle : lnRetention order.state order.deadline c ≤ c := by exact_mod_cast hcast
  simp only [lnRetention, if_neg hs, lnTerminalRetentionSec, lnActiveRetentionSec] at hle
  split at hle <;> omega

theorem ocPublish_lapsed {order : OnchainOrder} {c : ℤ} (h : ocPublish.retainUntil order c ≤ c) :
    order.state = .listed := by
  by_contra hs
  have hgrace : (0 : ℚ) < terminalGraceSec := by norm_num [terminalGraceSec]
  have hhorizon : (0 : ℚ) < onchainEventHorizonSec := by norm_num [onchainEventHorizonSec]
  simp only [ocPublish, onchainOrderEventExpiration, if_neg hs] at h
  split at h
  · split at h
    · linarith
    · linarith
  · have hmax := (le_max_right order.expiration (c + onchainEventHorizonSec)).trans h
    linarith

/-! ## The rows and the effect -/

section Daemon

variable {Order : Type}

/-- An order row, with the publication cursor. -/
structure PubRow (Order : Type) where
  order : Order
  version : ℕ
  publishedAt : ℤ

/-- An event that has been sent: the order it is about, as it was at a version. -/
structure SentEvent (Order : Type) where
  orderId : OrderId
  createdAt : ℤ
  version : ℕ
  order : Order

/-- What the worker is doing: it sends an event, or has sent one that is not recorded. -/
inductive PubRun (Order : Type)
  | idle
  | sending (p : SentEvent Order)
  | sent (p : SentEvent Order)

/-- The rows, the publish effects that are pending, and the publications that went through, the newest
last. -/
structure PubWorld (Order : Type) where
  now : ℤ
  rows : OrderId → Option (PubRow Order)
  pending : OrderId → Bool
  run : PubRun Order
  published : List (SentEvent Order)

/-- What happens.  A publication goes through when every event of it was accepted; one that failed is
tried again, and what a recipient has of it in the meantime is not counted. -/
inductive PubInput (Order : Type)
  | tick (seconds : ℕ)
  | insert (orderId : OrderId) (order : Order)
  | update (orderId : OrderId) (order : Order)
  | request (orderId : OrderId)
  | publish (orderId : OrderId)
  | accepted
  | failed
  | record
  | restart (now : ℤ)

namespace PubWorld

/-- The world in which nothing has happened. -/
def init (now : ℤ) : PubWorld Order := ⟨now, fun _ => none, fun _ => false, .idle, []⟩

/-- `requestProjection`: unless an effect for the order is pending. -/
def requestProjection (orderId : OrderId) (w : PubWorld Order) : PubWorld Order :=
  { w with pending := Function.update w.pending orderId true }

/-- The effect of an order is done. -/
def finish (orderId : OrderId) (w : PubWorld Order) : PubWorld Order :=
  { w with pending := Function.update w.pending orderId false }

/-- A row is written. -/
def setRow (orderId : OrderId) (row : PubRow Order) (w : PubWorld Order) : PubWorld Order :=
  { w with rows := Function.update w.rows orderId (some row) }

/-- `createOrderPublishExecutor`, `createOcPublishExecutor`: `run` up to `publishAll`. -/
def startPublish (T : PublishTrack Order) (orderId : OrderId) (w : PubWorld Order) :
    PubWorld Order :=
  match w.rows orderId with
  | none => w.finish orderId
  | some row =>
    let createdAt := max w.now (row.publishedAt + 1)
    if T.retainUntil row.order createdAt ≤ createdAt then w.finish orderId
    else { w with run := .sending ⟨orderId, createdAt, row.version, row.order⟩ }

/-- `onDone`: the cursor goes forward. -/
def recordPublish (p : SentEvent Order) (w : PubWorld Order) : PubWorld Order :=
  let w := w.finish p.orderId
  match w.rows p.orderId with
  | none => { w with run := .idle }
  | some row => { w.setRow p.orderId { row with publishedAt := p.createdAt } with run := .idle }

/-- One thing happens.  Rows are written while nothing is being sent; a restart forgets what is being
sent, and the clock has gone past what has been sent before. -/
def step (T : PublishTrack Order) (w : PubWorld Order) : PubInput Order → Option (PubWorld Order)
  | .tick seconds => some { w with now := w.now + seconds }
  | .insert orderId order =>
    match w.run, w.rows orderId with
    | .idle, none => some ((w.setRow orderId ⟨order, 1, 0⟩).requestProjection orderId)
    | _, _ => none
  | .update orderId order =>
    match w.run, w.rows orderId with
    | .idle, some row =>
      some ((w.setRow orderId ⟨order, row.version + 1, row.publishedAt⟩).requestProjection orderId)
    | _, _ => none
  | .request orderId =>
    match w.run with
    | .idle => some (w.requestProjection orderId)
    | _ => none
  | .publish orderId =>
    match w.run with
    | .idle => if w.pending orderId then some (w.startPublish T orderId) else none
    | _ => none
  | .accepted =>
    match w.run with
    | .sending p => some { w with run := .sent p, published := w.published ++ [p] }
    | _ => none
  | .failed =>
    match w.run with
    | .sending _ => some { w with run := .idle }
    | _ => none
  | .record =>
    match w.run with
    | .sent p => some (w.recordPublish p)
    | _ => none
  | .restart now =>
    if w.now < now ∧ ∀ p ∈ w.published, p.createdAt < now then some { w with now, run := .idle }
    else none

end PubWorld

/-- The daemon as a system of its inputs. -/
def pubSystem (T : PublishTrack Order) : TransitionSystem (PubWorld Order) (PubInput Order) where
  init w := ∃ now, w = PubWorld.init now
  step w i := w.step T i

/-- What has been sent about an order, the newest last. -/
def PubWorld.history (w : PubWorld Order) (orderId : OrderId) : List (SentEvent Order) :=
  w.published.filter fun p => p.orderId = orderId

/-- The retention of the row's image has lapsed: the executor would not send it. -/
def PubWorld.Lapsed (T : PublishTrack Order) (w : PubWorld Order) (row : PubRow Order) : Prop :=
  ∃ c, T.retainUntil row.order c ≤ c ∧ c ≤ max w.now (row.publishedAt + 1)

/-! ## What holds in every run -/

/-- The newest event of the order says what the row says. -/
def PubWorld.Fresh (w : PubWorld Order) (orderId : OrderId) (row : PubRow Order) : Prop :=
  ∃ p, (w.history orderId).getLast? = some p ∧ p.version = row.version

/-- The event that is being sent says what the row says, and is newer than all that has been sent. -/
structure PubWorld.Sending (w : PubWorld Order) (p : SentEvent Order)
    (before : List (SentEvent Order)) : Prop where
  pending : w.pending p.orderId = true
  row : ∃ r, w.rows p.orderId = some r ∧ p.version = r.version ∧ p.order = r.order ∧
    r.publishedAt < p.createdAt
  newer : ∀ q ∈ before, q.orderId = p.orderId → q.createdAt < p.createdAt

/-- What holds of what the worker is doing. -/
def PubWorld.Running (w : PubWorld Order) : Prop :=
  match w.run with
  | .idle => True
  | .sending p => w.Sending p w.published
  | .sent p => ∃ before, w.published = before ++ [p] ∧ w.Sending p before

/-- What holds of the rows and of what has been sent. -/
structure PubWorld.Sound (T : PublishTrack Order) (w : PubWorld Order) : Prop where
  current : ∀ id r, w.rows id = some r → w.pending id = true ∨ w.Fresh id r ∨ w.Lapsed T r
  images : ∀ p ∈ w.published, ∃ r, w.rows p.orderId = some r ∧ p.version ≤ r.version ∧
    (p.version = r.version → p.order = r.order)
  times : ∀ p ∈ w.published, ∀ r, w.rows p.orderId = some r →
    p.createdAt ≤ r.publishedAt ∨ p.createdAt < w.now ∨ w.run = .sent p
  ordered : w.published.Pairwise fun p q => p.orderId = q.orderId →
    p.createdAt < q.createdAt ∧ p.version ≤ q.version
  running : w.Running

namespace PubWorld

variable {T : PublishTrack Order} {w w' : PubWorld Order}

theorem setRow_self {orderId : OrderId} {row : PubRow Order} :
    (w.setRow orderId row).rows orderId = some row := Function.update_self ..

theorem Lapsed.mono {row : PubRow Order} (h : w.Lapsed T row) (hnow : w.now ≤ w'.now) :
    w'.Lapsed T row := by
  obtain ⟨c, hc, hle⟩ := h
  exact ⟨c, hc, hle.trans (max_le_max_right _ hnow)⟩

theorem running_idle (h : w.run = .idle) : w.Running := by
  rw [Running, h]
  trivial

/-- While nothing is sent but unrecorded, what has been sent is recorded or long past. -/
theorem Sound.settled (hw : w.Sound T) (hrun : ∀ p, w.run ≠ .sent p) {p : SentEvent Order}
    (hp : p ∈ w.published) {r : PubRow Order} (hr : w.rows p.orderId = some r) :
    p.createdAt ≤ r.publishedAt ∨ p.createdAt < w.now := by
  obtain h | h | h := hw.times p hp r hr
  · exact .inl h
  · exact .inr h
  · exact absurd h (hrun p)

/-- Time goes by, and what is being sent may be forgotten. -/
theorem Sound.later (hw : w.Sound T) {now : ℤ} {run : PubRun Order} (hnow : w.now ≤ now)
    (htimes : ∀ p ∈ w.published, w.run = .sent p → p.createdAt < now ∨ run = .sent p)
    (hrun : PubWorld.Running { w with now, run }) : PubWorld.Sound T { w with now, run } where
  current id r hr := by
    obtain h | h | h := hw.current id r hr
    · exact .inl h
    · exact .inr (.inl h)
    · exact .inr (.inr (h.mono hnow))
  images := hw.images
  times p hp r hr := by
    obtain h | h | h := hw.times p hp r hr
    · exact .inl h
    · exact .inr (.inl (h.trans_le hnow))
    · exact .inr (htimes p hp h)
  ordered := hw.ordered
  running := hrun

/-- A row is written, and its projection asked for. -/
theorem Sound.write (hw : w.Sound T) (hidle : w.run = .idle) {orderId : OrderId}
    {row : PubRow Order}
    (hrow : ∀ p ∈ w.published, p.orderId = orderId → ∃ r, w.rows orderId = some r ∧
      r.version < row.version ∧ r.publishedAt = row.publishedAt) :
    ((w.setRow orderId row).requestProjection orderId).Sound T where
  current id r hr := by
    by_cases hid : id = orderId
    · subst hid
      exact .inl (Function.update_self ..)
    · have hr : w.rows id = some r := (Function.update_of_ne hid ..).symm.trans hr
      obtain h | h | h := hw.current id r hr
      · exact .inl ((Function.update_of_ne hid ..).trans h)
      · exact .inr (.inl h)
      · exact .inr (.inr (h.mono le_rfl))
  images p hp := by
    by_cases hid : p.orderId = orderId
    · obtain ⟨r, hr, hlt, -⟩ := hrow p hp hid
      obtain ⟨r₁, hr₁, hle, -⟩ := hw.images p hp
      obtain rfl := Option.some.inj (hr.symm.trans (hid ▸ hr₁))
      refine ⟨row, hid ▸ Function.update_self .., hle.trans hlt.le, fun hv => ?_⟩
      omega
    · obtain ⟨r, hr, hrest⟩ := hw.images p hp
      exact ⟨r, (Function.update_of_ne hid ..).trans hr, hrest⟩
  times p hp r hr := by
    have hidle' : ∀ q, w.run ≠ .sent q := by simp [hidle]
    by_cases hid : p.orderId = orderId
    · obtain ⟨r₁, hr₁, -, hpub⟩ := hrow p hp hid
      have hnew : (w.setRow orderId row).rows p.orderId = some r := hr
      rw [hid, setRow_self] at hnew
      rw [← Option.some.inj hnew, ← hpub]
      exact (hw.settled hidle' hp (hid ▸ hr₁)).imp_right .inl
    · have hr : w.rows p.orderId = some r := (Function.update_of_ne hid ..).symm.trans hr
      exact (hw.settled hidle' hp hr).imp_right .inl
  ordered := hw.ordered
  running := running_idle hidle

/-- An effect is asked for. -/
theorem Sound.request (hw : w.Sound T) (hidle : w.run = .idle) (orderId : OrderId) :
    (w.requestProjection orderId).Sound T where
  current id r hr := by
    by_cases hid : id = orderId
    · subst hid
      exact .inl (Function.update_self ..)
    · exact (hw.current id r hr).imp_left (Function.update_of_ne hid ..).trans
  images := hw.images
  times := hw.times
  ordered := hw.ordered
  running := running_idle hidle

/-- An effect is done whose order is not there, or lapsed. -/
theorem Sound.finish (hw : w.Sound T) (hidle : w.run = .idle) {orderId : OrderId}
    (hrow : ∀ r, w.rows orderId = some r → w.Lapsed T r) : (w.finish orderId).Sound T where
  current id r hr := by
    by_cases hid : id = orderId
    · subst hid
      exact .inr (.inr (hrow r hr))
    · exact (hw.current id r hr).imp_left (Function.update_of_ne hid ..).trans
  images := hw.images
  times := hw.times
  ordered := hw.ordered
  running := running_idle hidle

/-- The worker starts to send an order. -/
theorem Sound.start (hw : w.Sound T) (hidle : w.run = .idle) {orderId : OrderId}
    (hpending : w.pending orderId = true) : (w.startPublish T orderId).Sound T := by
  unfold startPublish
  split
  · rename_i hnone
    exact hw.finish hidle fun r hr => by cases hnone.symm.trans hr
  · rename_i row hrow
    dsimp only
    split
    · rename_i hlapsed
      refine hw.finish hidle fun r hr => ?_
      obtain rfl := Option.some.inj (hrow.symm.trans hr)
      exact ⟨_, hlapsed, le_rfl⟩
    · refine hw.later le_rfl (fun p _ hp => absurd (hidle.symm.trans hp) (by simp)) ⟨hpending,
        ⟨row, hrow, rfl, rfl, ?_⟩, fun q hq hid => ?_⟩
      · exact (lt_add_one _).trans_le (le_max_right _ _)
      · -- whatever has been sent of the order is recorded, or older than the clock
        have hq := hw.settled (by simp [hidle]) hq (hid ▸ hrow : w.rows q.orderId = some row)
        change q.createdAt < max w.now (row.publishedAt + 1)
        omega

/-- The relays have the event. -/
theorem Sound.accept (hw : w.Sound T) {p : SentEvent Order} (hrun : w.run = .sending p) :
    PubWorld.Sound T { w with run := .sent p, published := w.published ++ [p] } := by
  have hsending : w.Sending p w.published := by
    have h := hw.running
    rw [Running, hrun] at h
    exact h
  obtain ⟨r, hr, hversion, horder, hlt⟩ := hsending.row
  have hmem : ∀ q ∈ w.published ++ [p], q ∈ w.published ∨ q = p := by simp
  refine ⟨fun id r₁ hr₁ => ?_, fun q hq => ?_, fun q hq r₁ hr₁ => ?_, ?_, w.published, rfl, ?_⟩
  · obtain h | h | h := hw.current id r₁ hr₁
    · exact .inl h
    · by_cases hid : p.orderId = id
      · exact .inl (hid ▸ hsending.pending)
      · refine .inr (.inl ?_)
        obtain ⟨q, hq, hv⟩ := h
        refine ⟨q, ?_, hv⟩
        rw [history, List.filter_append, List.filter_cons_of_neg (by simpa using hid),
          List.filter_nil, List.append_nil]
        exact hq
    · exact .inr (.inr h)
  · obtain hq | rfl := hmem q hq
    · exact hw.images q hq
    · exact ⟨r, hr, hversion.le, fun _ => horder⟩
  · obtain hq | rfl := hmem q hq
    · exact (hw.settled (by simp [hrun]) hq hr₁).imp_right .inl
    · exact .inr (.inr rfl)
  · refine List.pairwise_append.mpr ⟨hw.ordered, List.pairwise_singleton _ _, ?_⟩
    intro q hq p' hp' hid
    obtain rfl := List.mem_singleton.mp hp'
    obtain ⟨r₁, hr₁, hle, -⟩ := hw.images q hq
    obtain rfl := Option.some.inj (hr.symm.trans (hid ▸ hr₁))
    exact ⟨hsending.newer q hq hid, hversion ▸ hle⟩
  · exact ⟨hsending.pending, hsending.row, hsending.newer⟩

/-- What has been sent is recorded. -/
theorem Sound.recorded (hw : w.Sound T) {p : SentEvent Order} (hrun : w.run = .sent p) :
    (w.recordPublish p).Sound T := by
  have h := hw.running
  rw [Running, hrun] at h
  obtain ⟨before, hpub, hsending⟩ := h
  obtain ⟨r, hr, hversion, horder, hlt⟩ := hsending.row
  have hrecord : w.recordPublish p = { (w.finish p.orderId).setRow p.orderId
      { r with publishedAt := p.createdAt } with run := .idle } := by
    unfold recordPublish PubWorld.finish
    dsimp only
    rw [hr]
  rw [hrecord]
  refine ⟨fun id r₁ hr₁ => ?_, fun q hq => ?_, fun q hq r₁ hr₁ => ?_, hw.ordered, trivial⟩
  · by_cases hid : id = p.orderId
    · subst hid
      have hnew : ((w.finish p.orderId).setRow p.orderId
        { r with publishedAt := p.createdAt }).rows p.orderId = some r₁ := hr₁
      rw [setRow_self] at hnew
      refine .inr (.inl ⟨p, ?_, ?_⟩)
      · change (w.history p.orderId).getLast? = some p
        rw [history, hpub, List.filter_append, List.filter_cons_of_pos (by simp), List.filter_nil,
          List.getLast?_append, List.getLast?_singleton, Option.some_or]
      · rw [← Option.some.inj hnew]
        exact hversion
    · have hr₁ : w.rows id = some r₁ := (Function.update_of_ne hid ..).symm.trans hr₁
      exact (hw.current id r₁ hr₁).imp_left (Function.update_of_ne hid ..).trans
  · obtain ⟨r₁, hr₁, hle, himage⟩ := hw.images q hq
    by_cases hid : q.orderId = p.orderId
    · obtain rfl := Option.some.inj (hr.symm.trans (hid ▸ hr₁))
      exact ⟨{ r with publishedAt := p.createdAt }, hid ▸ Function.update_self .., hle, himage⟩
    · exact ⟨r₁, (Function.update_of_ne hid ..).trans hr₁, hle, himage⟩
  · by_cases hid : q.orderId = p.orderId
    · have hnew : ((w.finish p.orderId).setRow p.orderId
        { r with publishedAt := p.createdAt }).rows q.orderId = some r₁ := hr₁
      rw [hid, setRow_self] at hnew
      rw [← Option.some.inj hnew]
      have hq : q ∈ before ++ [p] := hpub ▸ hq
      obtain hq | hq := List.mem_append.mp hq
      · exact .inl (hsending.newer q hq hid).le
      · exact .inl (List.mem_singleton.mp hq ▸ le_rfl)
    · have hr₁ : w.rows q.orderId = some r₁ := (Function.update_of_ne hid ..).symm.trans hr₁
      obtain h | h | h := hw.times q hq r₁ hr₁
      · exact .inl h
      · exact .inr (.inl h)
      · exact absurd (PubRun.sent.inj (hrun.symm.trans h) ▸ rfl) hid

/-- Time does not matter for what is being sent. -/
theorem Running.tick (h : w.Running) (now : ℤ) : PubWorld.Running { w with now } := by
  cases hrun : w.run with
  | idle => trivial
  | sending p =>
    rw [Running, hrun] at h
    simp only [Running]
    exact ⟨h.pending, h.row, h.newer⟩
  | sent p =>
    rw [Running, hrun] at h
    simp only [Running]
    obtain ⟨before, hpub, h⟩ := h
    exact ⟨before, hpub, h.pending, h.row, h.newer⟩

theorem Sound.init (now : ℤ) : (PubWorld.init now).Sound T where
  current _ _ hr := by cases hr
  images _ hp := by cases hp
  times _ hp := by cases hp
  ordered := List.Pairwise.nil
  running := trivial

theorem Sound.step (hw : w.Sound T) {i : PubInput Order} (h : w.step T i = some w') :
    w'.Sound T := by
  cases i with
  | tick seconds =>
    obtain rfl := Option.some.inj h
    exact hw.later (by omega) (fun p _ hp => .inr hp) (hw.running.tick _)
  | insert orderId order =>
    simp only [PubWorld.step] at h
    split at h
    · rename_i hidle hnone
      obtain rfl := Option.some.inj h
      refine hw.write hidle fun p hp hid => ?_
      obtain ⟨r, hr, -⟩ := hw.images p hp
      rw [hid, hnone] at hr
      cases hr
    · cases h
  | update orderId order =>
    simp only [PubWorld.step] at h
    split at h
    · rename_i row hidle hrow
      obtain rfl := Option.some.inj h
      exact hw.write hidle fun p hp hid => ⟨row, hrow, Nat.lt_succ_self _, rfl⟩
    · cases h
  | request orderId =>
    simp only [PubWorld.step] at h
    split at h
    · rename_i hidle
      obtain rfl := Option.some.inj h
      exact hw.request hidle orderId
    · cases h
  | publish orderId =>
    simp only [PubWorld.step] at h
    split at h
    · rename_i hidle
      split at h
      · rename_i hpending
        obtain rfl := Option.some.inj h
        exact hw.start hidle hpending
      · cases h
    · cases h
  | accepted =>
    simp only [PubWorld.step] at h
    split at h
    · rename_i p hrun
      obtain rfl := Option.some.inj h
      exact hw.accept hrun
    · cases h
  | failed =>
    simp only [PubWorld.step] at h
    split at h
    · rename_i p hrun
      obtain rfl := Option.some.inj h
      exact hw.later le_rfl (fun q _ hq => absurd (hrun.symm.trans hq) (by simp)) trivial
    · cases h
  | record =>
    simp only [PubWorld.step] at h
    split at h
    · rename_i p hrun
      obtain rfl := Option.some.inj h
      exact hw.recorded hrun
    · cases h
  | restart now =>
    simp only [PubWorld.step] at h
    split at h
    · rename_i hclock
      obtain rfl := Option.some.inj h
      exact hw.later hclock.1.le (fun p hp _ => .inl (hclock.2 p hp)) trivial
    · cases h

theorem sound_of_reachable (hw : (pubSystem T).Reachable w) : w.Sound T := by
  refine TransitionSystem.invariant (M := pubSystem T) (P := fun w => w.Sound T) ?_ ?_ hw
  · rintro _ ⟨now, rfl⟩
    exact Sound.init now
  · intro w i w' _ hw h
    exact hw.step h

end PubWorld

/-! ## The client -/

/-- The orders a client has. -/
abbrev OrderStore (Order : Type) := OrderId → Option (SentEvent Order)

/-- An event goes in unless the one that is there is kept. -/
def upsertBy (keeps : ℤ → ℤ → Bool) (store : OrderStore Order) (p : SentEvent Order) :
    OrderStore Order :=
  match store p.orderId with
  | some existing =>
    if keeps existing.createdAt p.createdAt then store
    else Function.update store p.orderId (some p)
  | none => Function.update store p.orderId (some p)

/-- `upsertOnchainOrder`: what is there is kept when it is newer. -/
def upsertOnchainOrder (store : OrderStore Order) (p : SentEvent Order) : OrderStore Order :=
  upsertBy (fun existing new => existing > new) store p

/-- `upsertOrder`: what is there is kept unless it is older. -/
def upsertOrder (store : OrderStore Order) (p : SentEvent Order) : OrderStore Order :=
  upsertBy (fun existing new => existing ≥ new) store p

/-- The store has the newest of the events. -/
structure Newest (received : List (SentEvent Order)) (store : OrderStore Order) : Prop where
  some_of : ∀ id e, store id = some e → e ∈ received ∧ e.orderId = id ∧
    ∀ p ∈ received, p.orderId = id → p.createdAt ≤ e.createdAt
  none_of : ∀ id, store id = none → ∀ p ∈ received, p.orderId ≠ id

/-- The store that has got the events in this order. -/
def storeOf (keeps : ℤ → ℤ → Bool) (received : List (SentEvent Order)) : OrderStore Order :=
  received.foldl (upsertBy keeps) fun _ => none

/-- An event that goes in is the newest of its order. -/
theorem Newest.put {received : List (SentEvent Order)} {store : OrderStore Order}
    (h : Newest received store) {p : SentEvent Order}
    (hp : ∀ q ∈ received, q.orderId = p.orderId → q.createdAt ≤ p.createdAt) :
    Newest (received ++ [p]) (Function.update store p.orderId (some p)) where
  some_of id e he := by
    by_cases hid : id = p.orderId
    · subst hid
      rw [Function.update_self] at he
      obtain rfl := Option.some.inj he
      refine ⟨by simp, rfl, fun q hq hqid => ?_⟩
      obtain hq | hq := List.mem_append.mp hq
      · exact hp q hq hqid
      · rw [List.mem_singleton.mp hq]
    · rw [Function.update_of_ne hid] at he
      obtain ⟨hmem, heid, hmax⟩ := h.some_of id e he
      refine ⟨List.mem_append_left _ hmem, heid, fun q hq hqid => ?_⟩
      obtain hq | hq := List.mem_append.mp hq
      · exact hmax q hq hqid
      · rw [List.mem_singleton.mp hq] at hqid
        exact absurd hqid.symm hid
  none_of id hnone q hq := by
    by_cases hid : id = p.orderId
    · subst hid
      rw [Function.update_self] at hnone
      cases hnone
    · rw [Function.update_of_ne hid] at hnone
      obtain hq | hq := List.mem_append.mp hq
      · exact h.none_of id hnone q hq
      · rw [List.mem_singleton.mp hq]
        exact fun h => hid h.symm

theorem newest_storeOf {keeps : ℤ → ℤ → Bool} (hkeeps : ∀ a b, keeps a b = true → b ≤ a)
    (hdrops : ∀ a b, keeps a b = false → a ≤ b) (received : List (SentEvent Order)) :
    Newest received (storeOf keeps received) := by
  induction received using List.reverseRecOn with
  | nil => exact ⟨fun id e h => absurd h (by simp [storeOf]), fun id _ p hp => by cases hp⟩
  | append_singleton received p ih =>
    rw [storeOf, List.foldl_append, List.foldl_cons, List.foldl_nil, ← storeOf, upsertBy]
    split
    · rename_i existing hexisting
      obtain ⟨hmem, hid, hmax⟩ := ih.some_of _ _ hexisting
      split
      · rename_i hkeep
        -- what is there stays, and is newer than the event
        refine ⟨fun id e he => ?_, fun id hnone q hq => ?_⟩
        · obtain ⟨hemem, heid, hemax⟩ := ih.some_of id e he
          refine ⟨List.mem_append_left _ hemem, heid, fun q hq hqid => ?_⟩
          obtain hq | hq := List.mem_append.mp hq
          · exact hemax q hq hqid
          · obtain rfl := List.mem_singleton.mp hq
            subst hqid
            obtain rfl := Option.some.inj (hexisting.symm.trans he)
            exact hkeeps _ _ hkeep
        · obtain hq | hq := List.mem_append.mp hq
          · exact ih.none_of id hnone q hq
          · obtain rfl := List.mem_singleton.mp hq
            rintro rfl
            cases hexisting.symm.trans hnone
      · rename_i hdrop
        exact ih.put fun q hq hqid =>
          (hmax q hq hqid).trans (hdrops _ _ (Bool.eq_false_iff.mpr hdrop))
    · rename_i hnone
      exact ih.put fun q hq hqid => absurd hqid (ih.none_of _ hnone q hq)

/-- The store of a client that has got all that has been sent, in whatever order and however often. -/
theorem storeOf_eq {T : PublishTrack Order} {w : PubWorld Order} (hw : w.Sound T)
    {keeps : ℤ → ℤ → Bool} (hkeeps : ∀ a b, keeps a b = true → b ≤ a)
    (hdrops : ∀ a b, keeps a b = false → a ≤ b) {received : List (SentEvent Order)}
    (hreceived : ∀ p, p ∈ received ↔ p ∈ w.published) (id : OrderId) :
    storeOf keeps received id = (w.history id).getLast? := by
  have hnewest := newest_storeOf hkeeps hdrops received
  have hmem : ∀ p, p ∈ w.history id ↔ p ∈ received ∧ p.orderId = id := by
    intro p
    rw [PubWorld.history, List.mem_filter, decide_eq_true_eq, hreceived]
  cases hstore : storeOf keeps received id with
  | none =>
    have hnil : w.history id = [] := by
      refine List.eq_nil_iff_forall_not_mem.mpr fun p hp => ?_
      obtain ⟨hp, hid⟩ := (hmem p).mp hp
      exact hnewest.none_of id hstore p hp hid
    rw [hnil, List.getLast?_nil]
  | some e =>
    obtain ⟨he, heid, hmax⟩ := hnewest.some_of id e hstore
    have hhistory := (hmem e).mpr ⟨he, heid⟩
    cases hlast : (w.history id).getLast? with
    | none =>
      rw [List.getLast?_eq_none_iff.mp hlast] at hhistory
      cases hhistory
    | some q =>
      obtain ⟨before, hsplit⟩ := List.getLast?_eq_some_iff.mp hlast
      rw [hsplit] at hhistory
      obtain hbefore | hq := List.mem_append.mp hhistory
      · -- what has been sent before the last is older
        obtain ⟨hqmem, hqid⟩ := (hmem q).mp (List.mem_of_getLast? hlast)
        have hordered := hw.ordered.filter (fun p => decide (p.orderId = id))
        change (w.history id).Pairwise _ at hordered
        rw [hsplit] at hordered
        have hlt := (List.pairwise_append.mp hordered).2.2 e hbefore q (List.mem_singleton_self q)
        exact absurd (hlt (heid.trans hqid.symm)).1 (not_lt_of_ge (hmax q hqmem hqid))
      · rw [List.mem_singleton.mp hq]

/-! ## Freshness and convergence -/

/-- **Publishing keeps up, and clients converge.**  In every run, where a row has changed since the
image that has been sent last, an effect is pending or the retention of the row has lapsed; what has
been sent of an order has ever greater times, in the order of the row's versions, and shows the row as
it was; so that a client that gets all of it, in whatever order and however often, ends with the
latest. -/
theorem projection_converges (T : PublishTrack Order) (w : PubWorld Order)
    (hw : (pubSystem T).Reachable w) :
    (∀ id r, w.rows id = some r →
      (∀ p, (w.history id).getLast? = some p → p.version ≠ r.version) →
      w.pending id = true ∨ w.Lapsed T r) ∧
    (∀ id, (w.history id).Pairwise fun p q => p.createdAt < q.createdAt ∧ p.version ≤ q.version) ∧
    (∀ p ∈ w.published, ∃ r, w.rows p.orderId = some r ∧ p.version ≤ r.version ∧
      (p.version = r.version → p.order = r.order)) ∧
    ∀ received : List (SentEvent Order), (∀ p, p ∈ received ↔ p ∈ w.published) → ∀ id,
      received.foldl upsertOnchainOrder (fun _ => none) id = (w.history id).getLast? ∧
      received.foldl upsertOrder (fun _ => none) id = (w.history id).getLast? := by
  have hsound := PubWorld.sound_of_reachable hw
  refine ⟨fun id r hr hchanged => ?_, fun id => ?_, hsound.images, fun received hreceived id => ?_⟩
  · obtain h | ⟨p, hp, hversion⟩ | h := hsound.current id r hr
    · exact .inl h
    · exact absurd hversion (hchanged p hp)
    · exact .inr h
  · refine (hsound.ordered.filter (fun p => decide (p.orderId = id))).imp_of_mem ?_
    intro p q hp hq h
    have hpid := of_decide_eq_true (List.mem_filter.mp hp).2
    have hqid := of_decide_eq_true (List.mem_filter.mp hq).2
    exact h (hpid.trans hqid.symm)
  · have hkeeps : ∀ a b : ℤ, decide (a > b) = true → b ≤ a := fun a b h => (of_decide_eq_true h).le
    have hdrops : ∀ a b : ℤ, decide (a > b) = false → a ≤ b := fun a b h =>
      not_lt.mp (of_decide_eq_false h)
    have hkeeps' : ∀ a b : ℤ, decide (a ≥ b) = true → b ≤ a := fun a b h => of_decide_eq_true h
    have hdrops' : ∀ a b : ℤ, decide (a ≥ b) = false → a ≤ b := fun a b h =>
      (not_le.mp (of_decide_eq_false h)).le
    exact ⟨storeOf_eq hsound hkeeps hdrops hreceived id, storeOf_eq hsound hkeeps' hdrops' hreceived id⟩

end Daemon

/-! ### A request that is taken -/

/-- A request as it has been made. -/
def publishedRequest : LnOrderRow where
  orderId := "trade-1"
  state := .requested
  customer := "customer"
  sponsor := none
  price := 10000
  deadline := 3600
  payoutSat := none
  escrowHash := none
  escrowBolt11 := none
  escrowSettled := false
  sponsorInvoice := none
  disbursed := false
  payoutError := none
  customerDepositHash := none
  sponsorDepositHash := none
  pendingClose := none
  closeReason := none
  claimedAt := none
  accountSentAt := none
  accountCommitment := none
  remittedAt := none
  invoiceDeadline := none
  designatedSponsor := none
  createdAt := 0
  updatedAt := 0
  version := 1

/-- It is sent, taken, sent again just before the daemon stops, and once more after that. -/
def sampleProjection : List (PubInput LnOrderRow) :=
  [.insert "trade-1" publishedRequest, .publish "trade-1", .accepted, .record, .tick 5,
    .update "trade-1" { publishedRequest with state := .claimed, sponsor := some "sponsor" },
    .publish "trade-1", .accepted, .restart 10, .publish "trade-1", .accepted, .record]

/-- The three events have ever greater times, and whoever gets them backwards ends with the last. -/
theorem projection_converges_sample : ∃ w, (pubSystem lnPublish).Reachable w ∧
    w.published.map (fun p => (p.createdAt, p.version)) = [(1, 1), (5, 2), (10, 2)] ∧
    w.published.reverse.foldl upsertOnchainOrder (fun _ => none) "trade-1" =
      (w.history "trade-1").getLast? := by
  have hrun : ((pubSystem lnPublish).run (PubWorld.init 0) sampleProjection).any (fun w =>
      w.published.map (fun p => (p.createdAt, p.version)) = [(1, 1), (5, 2), (10, 2)]) = true := by
    decide +kernel
  simp only [Option.any_eq_true, decide_eq_true_eq] at hrun
  obtain ⟨w, hw, hpublished⟩ := hrun
  have hreach : (pubSystem lnPublish).Reachable w := TransitionSystem.Reachable.run (.init ⟨0, rfl⟩) hw
  exact ⟨w, hreach, hpublished, ((projection_converges lnPublish w hreach).2.2.2 w.published.reverse
    (fun p => List.mem_reverse) "trade-1").1⟩

/-! ## How long an outcome stays readable -/

section Readable

variable {Order : Type}

/-- What the executor begins to send for the order stays on the relays for so long. -/
def PubWorld.Readable (T : PublishTrack Order) (w : PubWorld Order) (orderId : OrderId)
    (seconds : ℤ) : Prop :=
  ∃ p, w.startPublish T orderId = { w with run := .sending p } ∧
    ((p.createdAt + seconds : ℤ) : ℚ) ≤ T.retainUntil p.order p.createdAt

/-- The executor sends an order unless its retention has lapsed. -/
theorem PubWorld.startPublish_sending {T : PublishTrack Order} {w : PubWorld Order}
    {orderId : OrderId} {row : PubRow Order} (hrow : w.rows orderId = some row)
    (h : ¬T.retainUntil row.order (max w.now (row.publishedAt + 1)) ≤
      (max w.now (row.publishedAt + 1) : ℤ)) :
    w.startPublish T orderId = { w with
      run := .sending ⟨orderId, max w.now (row.publishedAt + 1), row.version, row.order⟩ } := by
  simp only [PubWorld.startPublish, hrow, if_neg h]

theorem PubWorld.readable_iff {T : PublishTrack Order} {w : PubWorld Order} {orderId : OrderId}
    {row : PubRow Order} {seconds : ℤ} (hrow : w.rows orderId = some row)
    (h : ¬T.retainUntil row.order (max w.now (row.publishedAt + 1)) ≤
      (max w.now (row.publishedAt + 1) : ℤ)) :
    w.Readable T orderId seconds ↔
      ((max w.now (row.publishedAt + 1) + seconds : ℤ) : ℚ) ≤
        T.retainUntil row.order (max w.now (row.publishedAt + 1)) := by
  rw [PubWorld.Readable, PubWorld.startPublish_sending hrow h]
  constructor
  · rintro ⟨p, hp, hle⟩
    obtain rfl := PubRun.sending.inj (congrArg PubWorld.run hp)
    exact hle
  · intro hle
    exact ⟨_, rfl, hle⟩

end Readable

/-- On the Lightning track every outcome is kept for the retention of terminals. -/
theorem lnPublish_retains {order : LnOrderRow} (c : ℤ) (hs : order.state ≠ .requested) :
    ((c + lnTerminalRetentionSec : ℤ) : ℚ) ≤ lnPublish.retainUntil order c := by
  have hle : c + lnTerminalRetentionSec ≤ lnRetention order.state order.deadline c := by
    simp only [lnRetention, if_neg hs, lnTerminalRetentionSec, lnActiveRetentionSec]
    split
    · omega
    · omega
  show ((c + lnTerminalRetentionSec : ℤ) : ℚ) ≤ (lnRetention order.state order.deadline c : ℤ)
  exact_mod_cast hle

/-- On the on-chain track a terminal is kept for the grace only when its listing has run out, or
runs longer than that. -/
theorem ocPublish_retains_iff {order : OnchainOrder} (c : ℤ) (hs : order.state ≠ .listed) :
    ((c + terminalGraceSec : ℤ) : ℚ) ≤ ocPublish.retainUntil order c ↔
      ¬(isOnchainTerminal order.state = true ∧ (c : ℚ) < order.expiration ∧
        order.expiration < ((c + terminalGraceSec : ℤ) : ℚ)) := by
  simp only [ocPublish, onchainOrderEventExpiration, if_neg hs]
  push_cast
  by_cases hterm : isOnchainTerminal order.state = true
  · rw [if_pos hterm]
    by_cases hlive : order.expiration > c
    · rw [if_pos hlive]
      constructor
      · rintro hle ⟨-, -, hlt⟩
        linarith
      · intro h
        by_contra hlt
        exact h ⟨hterm, hlive, not_le.mp hlt⟩
    · rw [if_neg hlive]
      refine ⟨fun _ => ?_, fun _ => le_rfl⟩
      rintro ⟨-, hgt, -⟩
      exact hlive hgt
  · rw [if_neg hterm]
    refine ⟨fun _ h => hterm h.1, fun _ => ?_⟩
    refine le_trans ?_ (le_max_right _ _)
    have hle : (terminalGraceSec : ℚ) ≤ onchainEventHorizonSec := by
      norm_num [terminalGraceSec, onchainEventHorizonSec]
    linarith

/-- **How long an outcome stays readable.**  Nothing but a listing is ever left out.  A Lightning
order is kept for seven days; an on-chain one too, unless it is terminal and its listing would still
have run for less than that. -/
theorem outcome_readable_iff (ln : PubWorld LnOrderRow) (oc : PubWorld OnchainOrder)
    (orderId : OrderId) :
    (∀ row : PubRow LnOrderRow, ln.rows orderId = some row → row.order.state ≠ .requested →
      ln.Readable lnPublish orderId lnTerminalRetentionSec) ∧
    (∀ row : PubRow OnchainOrder, oc.rows orderId = some row → row.order.state ≠ .listed →
      (∃ p, oc.startPublish ocPublish orderId = { oc with run := .sending p }) ∧
      (oc.Readable ocPublish orderId terminalGraceSec ↔
        ¬(isOnchainTerminal row.order.state = true ∧
          (max oc.now (row.publishedAt + 1) : ℤ) < row.order.expiration ∧
          row.order.expiration <
            ((max oc.now (row.publishedAt + 1) + terminalGraceSec : ℤ) : ℚ)))) := by
  constructor
  · intro row hrow hs
    rw [PubWorld.readable_iff hrow fun h => hs (lnPublish_lapsed h)]
    exact lnPublish_retains _ hs
  · intro row hrow hs
    have hlive := fun h => hs (ocPublish_lapsed (c := max oc.now (row.publishedAt + 1)) h)
    exact ⟨⟨_, PubWorld.startPublish_sending hrow hlive⟩,
      (PubWorld.readable_iff hrow hlive).trans (ocPublish_retains_iff _ hs)⟩

/-- A listing of an hour that its customer has withdrawn. -/
def withdrawnListing : OnchainOrder where
  orderId := "trade-1"
  state := .cancelled
  customerPubkey := "customer"
  amountSat := 100000
  createdAt := 0
  updatedAt := 60
  expiration := 3600
  network := .signet

/-- A minute after it was listed. -/
def withdrawnWorld : PubWorld OnchainOrder :=
  { PubWorld.init 60 with rows := fun _ => some ⟨withdrawnListing, 2, 0⟩ }

/-- It is gone from the relays within the hour. -/
theorem outcome_not_readable :
    ¬∀ (w : PubWorld OnchainOrder) (orderId : OrderId) (row : PubRow OnchainOrder),
      w.rows orderId = some row → row.order.state ≠ .listed →
      w.Readable ocPublish orderId terminalGraceSec := by
  intro hclaim
  obtain ⟨p, hp, hle⟩ := hclaim withdrawnWorld "trade-1" ⟨withdrawnListing, 2, 0⟩ rfl (by decide)
  have hsent : withdrawnWorld.startPublish ocPublish "trade-1" =
      { withdrawnWorld with run := .sending ⟨"trade-1", 60, 2, withdrawnListing⟩ } := rfl
  obtain rfl := PubRun.sending.inj (congrArg PubWorld.run (hp.symm.trans hsent))
  revert hle
  decide

/-- The request of the sample once it is claimed. -/
def claimedWorld : PubWorld LnOrderRow :=
  { PubWorld.init 60 with
    rows := fun _ => some ⟨{ publishedRequest with state := .claimed }, 2, 0⟩ }

/-- The request of the sample, and the withdrawn listing at its end. -/
theorem outcome_readable_iff_sample :
    claimedWorld.Readable lnPublish "trade-1" lnTerminalRetentionSec ∧
    (PubWorld.Readable ocPublish { withdrawnWorld with now := 3600 } "trade-1" terminalGraceSec ↔
      ¬(isOnchainTerminal withdrawnListing.state = true ∧
        ((max 3600 (0 + 1) : ℤ) : ℚ) < withdrawnListing.expiration ∧
        withdrawnListing.expiration < ((max 3600 (0 + 1) + terminalGraceSec : ℤ) : ℚ))) := by
  obtain ⟨hln, hoc⟩ :=
    outcome_readable_iff claimedWorld { withdrawnWorld with now := 3600 } "trade-1"
  exact ⟨hln _ rfl (by decide), (hoc ⟨withdrawnListing, 2, 0⟩ rfl (by decide)).2⟩

end LnPay
