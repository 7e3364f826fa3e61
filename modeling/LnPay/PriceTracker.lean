/-
# The price tracker (`shared/src/price.ts`)

The price of a trade is fixed from what three exchanges say.  Each has a socket
of its own that comes and goes: a socket that has been replaced may still close,
and the last price of a source that has gone stays on the screen.

The tracker is a transition system over the events of the sockets and timers.
`Tracked` is its invariant: each exchange has one live socket or is waiting to
reconnect, never both and never neither, and what it shows was received since
the last start.  `Pings` says that no ping interval is ever lost.  `freshPrice_robust`
is what the price rests on.
-/
import LnPay.Explorer
import LnPay.Median
import LnPay.TransitionSystem
import Mathlib.Logic.Function.Basic

namespace LnPay

open Median Explorer

/-! ## Sources -/

/-- `EXCHANGES`. -/
inductive Exchange
  | upbit
  | bithumb
  | coinone
  deriving DecidableEq, Repr

/-- The exchanges, in order. -/
def Exchange.all : List Exchange := [.upbit, .bithumb, .coinone]

/-- The number of a text, `none` when it is not one; a price is finite. -/
abbrev NumberOf := String → Option ℚ

/-- A number that a message holds as such. -/
def Explorer.Num.price : Num → Option ℚ
  | .finite q => some q
  | _ => none

/-- `parsePrice`, of each exchange. -/
def Exchange.parsePrice (number : NumberOf) (data : Json) : Exchange → Option ℚ
  | .upbit =>
    if asString (data.field "type") = some "ticker" then
      (asNumber (data.field "trade_price")).bind Num.price
    else none
  | .bithumb =>
    if asString (data.field "type") = some "ticker" then
      (asString (data.field₂ "content" "closePrice")).bind number
    else none
  | .coinone =>
    if asString (data.field "response_type") = some "DATA" then
      (asString (data.field₂ "data" "last")).bind number
    else none

/-- `ExchangeState`. -/
structure ExchangeState where
  price : Option ℚ := none
  connected : Bool := false
  updatedAt : Option ℤ := none
  deriving DecidableEq

/-- `PriceSnapshot`. -/
structure PriceSnapshot where
  price : Option ℚ
  exchanges : Exchange → ExchangeState

/-- `freshPrice`. -/
def freshPrice (mean : Mean ℚ) (snapshot : PriceSnapshot) (now : ℤ) (maxAgeMs : ℤ) (minSources : ℕ) :
    Option ℚ :=
  let fresh := Exchange.all.filterMap fun ex =>
    let e := snapshot.exchanges ex
    if e.updatedAt.any fun t => now - t ≤ maxAgeMs then e.price else none
  if fresh.length < minSources then none else median mean fresh

/-! ## The tracker -/

/-- `readyState`, of a socket that has not closed yet. -/
inductive SocketPhase
  | connecting
  | open
  | closing
  deriving DecidableEq, Repr

/-- The tracker, the sockets that have not closed, the ping intervals that have not been cleared, each
with the exchange it was set for and the socket it writes to, and the prices that have been taken
since the last start, the newest first. -/
structure PriceTracker where
  running : Bool := false
  states : Exchange → ExchangeState := fun _ => {}
  snapshot : PriceSnapshot := ⟨none, fun _ => {}⟩
  sockets : Exchange → Option ℕ := fun _ => none
  reconnecting : Exchange → Bool := fun _ => false
  /-- `pingTimers`: the interval in hand, by the socket it writes to -/
  pinging : Exchange → Option ℕ := fun _ => none
  intervals : List (Exchange × ℕ) := []
  live : ℕ → Option (Exchange × SocketPhase) := fun _ => none
  nextSocket : ℕ := 0
  taken : List (Exchange × ℚ × ℤ) := []

namespace PriceTracker

variable (mean : Mean ℚ) (number : NumberOf)

/-- `notify`. -/
def notify (t : PriceTracker) : PriceTracker :=
  { t with snapshot := ⟨median mean (Exchange.all.filterMap fun ex => (t.states ex).price), t.states⟩ }

/-- `cleanupPing`: the intervals that are left. -/
def clearPing (ex : Exchange) (t : PriceTracker) : List (Exchange × ℕ) :=
  match t.pinging ex with
  | none => t.intervals
  | some id => t.intervals.erase (ex, id)

/-- `cleanupSocket`: the socket is forgotten before it closes. -/
def cleanupSocket (ex : Exchange) (t : PriceTracker) : PriceTracker :=
  { t with
    sockets := Function.update t.sockets ex none
    pinging := Function.update t.pinging ex none
    intervals := t.clearPing ex
    live := match t.sockets ex with
      | none => t.live
      | some id => Function.update t.live id ((t.live id).map fun s => (s.1, .closing)) }

/-- `scheduleReconnect`. -/
def scheduleReconnect (ex : Exchange) (t : PriceTracker) : PriceTracker :=
  if t.running then { t with reconnecting := Function.update t.reconnecting ex true } else t

/-- `connectExchange`; the constructor of the socket may throw. -/
def connectExchange (ex : Exchange) (throws : Bool) (t : PriceTracker) : PriceTracker :=
  if t.running then
    let t := t.cleanupSocket ex
    if throws then t.scheduleReconnect ex
    else { t with
      sockets := Function.update t.sockets ex (some t.nextSocket)
      live := Function.update t.live t.nextSocket (some (ex, .connecting))
      nextSocket := t.nextSocket + 1 }
  else t

/-- `start`. -/
def start (throws : Exchange → Bool) (t : PriceTracker) : PriceTracker :=
  if t.running then t
  else Exchange.all.foldl (fun t ex => t.connectExchange ex (throws ex)) { t with running := true }

/-- What `stop` does to one exchange. -/
def stopExchange (t : PriceTracker) (ex : Exchange) : PriceTracker :=
  let t := t.cleanupSocket ex
  { t with
    reconnecting := Function.update t.reconnecting ex false
    states := Function.update t.states ex {} }

/-- `stop`. -/
def stop (t : PriceTracker) : PriceTracker :=
  { Exchange.all.foldl stopExchange { t with running := false } with taken := [] }.notify mean

/-- What happens to a tracker. -/
inductive Input
  | start (throws : Exchange → Bool)
  | stop
  | opened (socket : ℕ)
  | message (socket : ℕ) (data : Json) (now : ℤ)
  | failed (socket : ℕ)
  | closed (socket : ℕ)
  | reconnect (ex : Exchange) (throws : Bool)

/-- The handlers.  A socket opens once, says nothing when it is not open, and closes once. -/
def step (t : PriceTracker) : Input → Option PriceTracker
  | .start throws => some (t.start throws)
  | .stop => some (t.stop mean)
  | .opened id =>
    match t.live id with
    | some (ex, .connecting) => some ({ t with
        live := Function.update t.live id (some (ex, .open))
        states := Function.update t.states ex { t.states ex with connected := true }
        pinging := Function.update t.pinging ex (some id)
        intervals := (ex, id) :: t.intervals }.notify mean)
    | _ => none
  | .message id data now =>
    match t.live id with
    | some (ex, .open) =>
      match ex.parsePrice number data with
      | none => some t
      | some price => some ({ t with
          states := Function.update t.states ex
            { t.states ex with price := some price, updatedAt := some now }
          taken := (ex, price, now) :: t.taken }.notify mean)
    | _ => none
  | .failed id =>
    match t.live id with
    | some (ex, _) => some { t with live := Function.update t.live id (some (ex, .closing)) }
    | none => none
  | .closed id =>
    match t.live id with
    | none => none
    | some (ex, _) =>
      let t := { t with live := Function.update t.live id none }
      if t.sockets ex ≠ some id then some t
      else some (({ t with
        sockets := Function.update t.sockets ex none
        states := Function.update t.states ex { t.states ex with connected := false }
        pinging := Function.update t.pinging ex none
        intervals := t.clearPing ex }.notify mean).scheduleReconnect ex)
  | .reconnect ex throws =>
    if t.reconnecting ex then
      some (({ t with reconnecting := Function.update t.reconnecting ex false }).connectExchange ex throws)
    else none

end PriceTracker

/-- The system. -/
def priceSystem (mean : Mean ℚ) (number : NumberOf) :
    TransitionSystem PriceTracker PriceTracker.Input where
  init t := t = {}
  step := PriceTracker.step mean number

/-! ## The invariant -/

namespace PriceTracker

/-- The sockets: each exchange has at most one that is not closing, and pings only that one. -/
structure Wired (t : PriceTracker) : Prop where
  socket : ∀ ex id, t.sockets ex = some id → ∃ phase, t.live id = some (ex, phase)
  only : ∀ id ex phase, t.live id = some (ex, phase) → phase ≠ .closing → t.sockets ex = some id
  ping : ∀ ex id, t.pinging ex = some id → t.sockets ex = some id
  unused : ∀ id, t.nextSocket ≤ id → t.live id = none

/-- What an exchange was last heard of to say. -/
def lastTaken (taken : List (Exchange × ℚ × ℤ)) (ex : Exchange) : Option (ℚ × ℤ) :=
  (taken.find? fun m => m.1 = ex).map Prod.snd

/-- What is shown is what was received, and the screen shows it. -/
structure Shown (t : PriceTracker) : Prop where
  price : ∀ ex, (t.states ex).price = (lastTaken t.taken ex).map Prod.fst
  updatedAt : ∀ ex, (t.states ex).updatedAt = (lastTaken t.taken ex).map Prod.snd
  snapshot : t.snapshot.exchanges = t.states

/-- The invariant, but for the exchanges that are about to be connected. -/
structure TrackedBut (mean : Mean ℚ) (busy : Exchange → Prop) (t : PriceTracker) : Prop where
  wired : t.Wired
  shown : t.Shown
  median : t.snapshot.price = Median.median mean (Exchange.all.filterMap fun ex => (t.states ex).price)
  idle : ∀ ex, busy ex → t.sockets ex = none ∧ t.reconnecting ex = false
  waiting : t.running = true → ∀ ex, ¬ busy ex → t.reconnecting ex = (t.sockets ex).isNone
  stopped : t.running = false →
    (∀ ex, t.sockets ex = none ∧ t.reconnecting ex = false ∧ t.states ex = {}) ∧ t.taken = []

/-- **The invariant**: a tracker that runs has for each exchange one socket or one timer, and one that
does not has nothing. -/
abbrev Tracked (mean : Mean ℚ) (t : PriceTracker) : Prop := t.TrackedBut mean fun _ => False

variable {mean : Mean ℚ} {number : NumberOf} {t t' : PriceTracker} {ex : Exchange}

theorem Wired.cleanupSocket (h : t.Wired) (ex : Exchange) : (t.cleanupSocket ex).Wired := by
  constructor
  · intro ex' id' hs
    by_cases hex : ex' = ex
    · simp [PriceTracker.cleanupSocket, hex] at hs
    · have hs' : t.sockets ex' = some id' := by simpa [PriceTracker.cleanupSocket, hex] using hs
      obtain ⟨phase, hlive⟩ := h.socket ex' id' hs'
      unfold PriceTracker.cleanupSocket
      cases hid : t.sockets ex with
      | none => exact ⟨phase, hlive⟩
      | some id =>
        obtain ⟨phase', hlive'⟩ := h.socket ex id hid
        have hne : id' ≠ id := by
          rintro rfl
          exact hex (Prod.mk.inj (Option.some.inj (hlive.symm.trans hlive'))).1
        exact ⟨phase, by simpa [hne] using hlive⟩
  · intro id' ex' phase hlive hphase
    have hold : t.live id' = some (ex', phase) ∧ t.sockets ex ≠ some id' := by
      unfold PriceTracker.cleanupSocket at hlive
      cases hid : t.sockets ex with
      | none =>
        rw [hid] at hlive
        exact ⟨hlive, by simp⟩
      | some id =>
        rw [hid] at hlive
        by_cases hne : id' = id
        · obtain ⟨phase', hlive'⟩ := h.socket ex id hid
          simp only [hne, Function.update_self, hlive', Option.map_some, Option.some.injEq,
            Prod.mk.injEq] at hlive
          exact absurd hlive.2.symm hphase
        · exact ⟨by simpa [hne] using hlive, fun heq => hne (Option.some.inj heq).symm⟩
    have hs := h.only id' ex' phase hold.1 hphase
    have hex : ex' ≠ ex := by
      rintro rfl
      exact hold.2 hs
    simpa [PriceTracker.cleanupSocket, hex] using hs
  · intro ex' id' hp
    by_cases hex : ex' = ex
    · simp [PriceTracker.cleanupSocket, hex] at hp
    · have hp' : t.pinging ex' = some id' := by simpa [PriceTracker.cleanupSocket, hex] using hp
      simpa [PriceTracker.cleanupSocket, hex] using h.ping ex' id' hp'
  · intro id' hid'
    have hnone := h.unused id' hid'
    unfold PriceTracker.cleanupSocket
    cases hid : t.sockets ex with
    | none => exact hnone
    | some id =>
      obtain ⟨phase, hlive⟩ := h.socket ex id hid
      have hne : id' ≠ id := by
        rintro rfl
        exact absurd (hlive.symm.trans hnone) (by simp)
      simpa [hne] using hnone

/-- A socket for an exchange that has none. -/
theorem Wired.connect (h : t.Wired) (hnone : t.sockets ex = none) :
    Wired { t with
      sockets := Function.update t.sockets ex (some t.nextSocket)
      live := Function.update t.live t.nextSocket (some (ex, .connecting))
      nextSocket := t.nextSocket + 1 } := by
  have hnew : t.live t.nextSocket = none := h.unused _ (le_refl _)
  constructor
  · intro ex' id hs
    by_cases hex : ex' = ex
    · subst hex
      obtain rfl : t.nextSocket = id := by simpa using hs
      exact ⟨.connecting, by simp⟩
    · have hs' : t.sockets ex' = some id := by simpa [hex] using hs
      obtain ⟨phase, hlive⟩ := h.socket ex' id hs'
      have hne : id ≠ t.nextSocket := by
        rintro rfl
        exact absurd (hlive.symm.trans hnew) (by simp)
      exact ⟨phase, by simpa [hne] using hlive⟩
  · intro id ex' phase hlive hphase
    by_cases hne : id = t.nextSocket
    · subst hne
      obtain ⟨rfl, -⟩ : ex = ex' ∧ SocketPhase.connecting = phase := by simpa using hlive
      simp
    · have hs := h.only id ex' phase (by simpa [hne] using hlive) hphase
      have hex : ex' ≠ ex := by
        rintro rfl
        exact absurd (hs.symm.trans hnone) (by simp)
      simpa [hex] using hs
  · intro ex' id hp
    have hs := h.ping ex' id hp
    have hex : ex' ≠ ex := by
      rintro rfl
      exact absurd (hs.symm.trans hnone) (by simp)
    simpa [hex] using hs
  · intro id hid
    have hlt : t.nextSocket + 1 ≤ id := hid
    have hne : id ≠ t.nextSocket := by omega
    simpa [hne] using h.unused id (by omega)

theorem sockets_cleanupSocket (t : PriceTracker) (ex : Exchange) :
    (t.cleanupSocket ex).sockets = Function.update t.sockets ex none := rfl

/-- Connecting an exchange that has neither a socket nor a timer gives it one of them. -/
theorem TrackedBut.connectExchange {busy : Exchange → Prop} (h : t.TrackedBut mean busy)
    (ex : Exchange) (hbusy : busy ex) (hrun : t.running = true) (throws : Bool) :
    (t.connectExchange ex throws).TrackedBut mean (fun ex' => busy ex' ∧ ex' ≠ ex) ∧
      (t.connectExchange ex throws).running = true := by
  obtain ⟨hsock, hrec⟩ := h.idle ex hbusy
  have hwired := h.wired.cleanupSocket ex
  unfold PriceTracker.connectExchange
  rw [if_pos hrun]
  cases throws with
  | true =>
    have hrun' : (t.cleanupSocket ex).running = true := hrun
    rw [if_pos rfl, scheduleReconnect, if_pos hrun']
    refine ⟨⟨⟨hwired.socket, hwired.only, hwired.ping, hwired.unused⟩, ⟨h.shown.price,
      h.shown.updatedAt, h.shown.snapshot⟩, h.median, ?_, ?_, ?_⟩, hrun⟩
    · rintro ex' ⟨hb, hne⟩
      simpa [PriceTracker.cleanupSocket, hne] using h.idle ex' hb
    · intro _ ex' hb
      by_cases hex : ex' = ex
      · simp [PriceTracker.cleanupSocket, hex]
      · have hb' : ¬ busy ex' := fun hb' => hb ⟨hb', hex⟩
        simpa [PriceTracker.cleanupSocket, hex] using h.waiting hrun ex' hb'
    · intro hstop
      exact absurd (hstop.symm.trans hrun) (by simp)
  | false =>
    have hnone : (t.cleanupSocket ex).sockets ex = none := by simp [sockets_cleanupSocket]
    rw [if_neg Bool.false_ne_true]
    refine ⟨⟨hwired.connect hnone, ⟨h.shown.price, h.shown.updatedAt, h.shown.snapshot⟩, h.median, ?_,
      ?_, ?_⟩, hrun⟩
    · rintro ex' ⟨hb, hne⟩
      simpa [PriceTracker.cleanupSocket, hne] using h.idle ex' hb
    · intro _ ex' hb
      by_cases hex : ex' = ex
      · simpa [PriceTracker.cleanupSocket, hex] using hrec
      · have hb' : ¬ busy ex' := fun hb' => hb ⟨hb', hex⟩
        simpa [PriceTracker.cleanupSocket, hex] using h.waiting hrun ex' hb'
    · intro hstop
      exact absurd (hstop.symm.trans hrun) (by simp)

theorem TrackedBut.mono {busy busy' : Exchange → Prop} (h : t.TrackedBut mean busy)
    (hb : ∀ ex, busy ex ↔ busy' ex) : t.TrackedBut mean busy' where
  wired := h.wired
  shown := h.shown
  median := h.median
  idle ex hex := h.idle ex ((hb ex).mpr hex)
  waiting hrun ex hex := h.waiting hrun ex fun hbusy => hex ((hb ex).mp hbusy)
  stopped := h.stopped

/-- `start` connects the exchanges one after the other. -/
theorem Tracked.start (h : t.Tracked mean) (throws : Exchange → Bool) :
    (t.start throws).Tracked mean := by
  unfold PriceTracker.start
  by_cases hrun : t.running = true
  · rwa [if_pos hrun]
  · rw [if_neg hrun]
    have hstop := (h.stopped (Bool.not_eq_true _ ▸ hrun)).1
    have hbusy : TrackedBut mean (fun _ => True) { t with running := true } :=
      ⟨⟨h.wired.socket, h.wired.only, h.wired.ping, h.wired.unused⟩,
        ⟨h.shown.price, h.shown.updatedAt, h.shown.snapshot⟩, h.median,
        fun ex _ => ⟨(hstop ex).1, (hstop ex).2.1⟩, fun _ _ hb => absurd trivial hb,
        fun hfalse => absurd hfalse (by simp)⟩
    obtain ⟨h₁, hr₁⟩ := hbusy.connectExchange .upbit trivial rfl (throws .upbit)
    obtain ⟨h₂, hr₂⟩ := h₁.connectExchange .bithumb ⟨trivial, by simp⟩ hr₁ (throws .bithumb)
    obtain ⟨h₃, -⟩ := h₂.connectExchange .coinone ⟨⟨trivial, by simp⟩, by simp⟩ hr₂
      (throws .coinone)
    refine TrackedBut.mono h₃ fun ex => ?_
    cases ex <;> simp

/-- What stopping one exchange leaves of the others. -/
theorem stopExchange_spec (h : t.Wired) (ex : Exchange) :
    (t.stopExchange ex).Wired ∧ (t.stopExchange ex).running = t.running ∧
      (∀ ex', (t.stopExchange ex).sockets ex' = if ex' = ex then none else t.sockets ex') ∧
      (∀ ex', (t.stopExchange ex).reconnecting ex' = if ex' = ex then false else t.reconnecting ex') ∧
      ∀ ex', (t.stopExchange ex).states ex' = if ex' = ex then {} else t.states ex' := by
  have hw := h.cleanupSocket ex
  refine ⟨⟨hw.socket, hw.only, hw.ping, hw.unused⟩, rfl, fun ex' => ?_, fun ex' => ?_, fun ex' => ?_⟩
  · rw [stopExchange, sockets_cleanupSocket, Function.update_apply]
  · exact Function.update_apply _ _ _ _
  · exact Function.update_apply _ _ _ _

/-- `stop` leaves nothing. -/
theorem Tracked.stop (h : t.Tracked mean) : (t.stop mean).Tracked mean := by
  have h₀ : Wired { t with running := false } :=
    ⟨h.wired.socket, h.wired.only, h.wired.ping, h.wired.unused⟩
  obtain ⟨h₁, hr₁, hs₁, hc₁, ht₁⟩ := stopExchange_spec h₀ .upbit
  obtain ⟨h₂, hr₂, hs₂, hc₂, ht₂⟩ := stopExchange_spec h₁ .bithumb
  obtain ⟨h₃, hr₃, hs₃, hc₃, ht₃⟩ := stopExchange_spec h₂ .coinone
  have hall : ∀ ex, (Exchange.all.foldl stopExchange { t with running := false }).sockets ex = none ∧
      (Exchange.all.foldl stopExchange { t with running := false }).reconnecting ex = false ∧
      (Exchange.all.foldl stopExchange { t with running := false }).states ex = {} := by
    intro ex
    simp only [Exchange.all, List.foldl_cons, List.foldl_nil, hs₃, hs₂, hs₁, hc₃, hc₂, hc₁, ht₃, ht₂, ht₁]
    cases ex <;> simp
  have hrun : (Exchange.all.foldl stopExchange { t with running := false }).running = false :=
    hr₃.trans (hr₂.trans hr₁)
  exact ⟨⟨h₃.socket, h₃.only, h₃.ping, h₃.unused⟩,
    ⟨fun ex => congrArg ExchangeState.price (hall ex).2.2,
      fun ex => congrArg ExchangeState.updatedAt (hall ex).2.2, rfl⟩, rfl, fun _ hb => hb.elim,
    fun hfalse => absurd (hfalse.symm.trans hrun) (by simp), fun _ => ⟨hall, rfl⟩⟩

/-- A socket that is open belongs to a tracker that runs. -/
theorem Tracked.running_of_live (h : t.Tracked mean) {id : ℕ} {phase : SocketPhase}
    (hlive : t.live id = some (ex, phase)) (hphase : phase ≠ .closing) : t.running = true := by
  by_contra hrun
  have hnone := ((h.stopped (Bool.not_eq_true _ ▸ hrun)).1 ex).1
  exact absurd ((h.wired.only id ex phase hlive hphase).symm.trans hnone) (by simp)

/-- A socket changes its phase and stays the one of its exchange. -/
theorem Wired.phase (h : t.Wired) {id : ℕ} {phase : SocketPhase} (phase' : SocketPhase)
    (hlive : t.live id = some (ex, phase)) (hphase : phase ≠ .closing ∨ phase' = .closing) :
    Wired { t with live := Function.update t.live id (some (ex, phase')) } := by
  refine ⟨fun ex' id' hs => ?_, fun id' ex' p hl hp => ?_, h.ping, fun id' hid' => ?_⟩
  · obtain ⟨p, hp⟩ := h.socket ex' id' hs
    by_cases hid : id' = id
    · subst hid
      obtain ⟨rfl, -⟩ := Prod.mk.inj (Option.some.inj (hp.symm.trans hlive))
      exact ⟨phase', by simp⟩
    · exact ⟨p, by simpa [hid] using hp⟩
  · by_cases hid : id' = id
    · subst hid
      obtain ⟨rfl, rfl⟩ : ex = ex' ∧ phase' = p := by simpa using hl
      exact h.only id' ex phase hlive (hphase.resolve_right hp)
    · exact h.only id' ex' p (by simpa [hid] using hl) hp
  · have hne : id' ≠ id := by
      rintro rfl
      exact absurd (hlive.symm.trans (h.unused id' hid')) (by simp)
    simpa [hne] using h.unused id' hid'

/-- A socket that closes is not one any more, nor is it the one of its exchange. -/
theorem Wired.closed (h : t.Wired) {id : ℕ} {phase : SocketPhase}
    (hlive : t.live id = some (ex, phase)) :
    (t.sockets ex ≠ some id → Wired { t with live := Function.update t.live id none }) ∧
      (t.sockets ex = some id → Wired { t with
        live := Function.update t.live id none
        sockets := Function.update t.sockets ex none
        pinging := Function.update t.pinging ex none }) := by
  have hother : ∀ ex' id', t.sockets ex' = some id' → (ex' ≠ ex ∨ t.sockets ex ≠ some id) →
      id' ≠ id := by
    rintro ex' id' hs hne rfl
    obtain ⟨p, hp⟩ := h.socket ex' id' hs
    obtain ⟨rfl, -⟩ := Prod.mk.inj (Option.some.inj (hp.symm.trans hlive))
    obtain hne | hne := hne
    · exact hne rfl
    · exact hne hs
  have hunused : ∀ id', t.nextSocket ≤ id' → Function.update t.live id none id' = none := by
    intro id' hid'
    rw [Function.update_apply, h.unused id' hid', ite_self]
  have hold : ∀ {id' ex' p}, Function.update t.live id none id' = some (ex', p) →
      id' ≠ id ∧ t.live id' = some (ex', p) := by
    intro id' ex' p hl
    by_cases hid : id' = id
    · simp [hid] at hl
    · exact ⟨hid, by simpa [hid] using hl⟩
  constructor
  · intro hne
    refine ⟨fun ex' id' hs => ?_, fun id' ex' p hl hp => h.only id' ex' p (hold hl).2 hp, h.ping, hunused⟩
    obtain ⟨p, hp⟩ := h.socket ex' id' hs
    exact ⟨p, by simpa [hother ex' id' hs (.inr hne)] using hp⟩
  · intro hcur
    refine ⟨fun ex' id' hs => ?_, fun id' ex' p hl hp => ?_, fun ex' id' hp => ?_, hunused⟩
    · by_cases hex : ex' = ex
      · simp [hex] at hs
      · have hs' : t.sockets ex' = some id' := by simpa [hex] using hs
        obtain ⟨p, hp⟩ := h.socket ex' id' hs'
        exact ⟨p, by simpa [hother ex' id' hs' (.inl hex)] using hp⟩
    · obtain ⟨hid, hl⟩ := hold hl
      have hs := h.only id' ex' p hl hp
      by_cases hex : ex' = ex
      · subst hex
        exact absurd (Option.some.inj (hs.symm.trans hcur)) hid
      · simpa [hex] using hs
    · by_cases hex : ex' = ex
      · simp [hex] at hp
      · simpa [hex] using h.ping ex' id' (by simpa [hex] using hp)

theorem update_connected (states : Exchange → ExchangeState) (ex ex' : Exchange) (b : Bool) :
    (Function.update states ex { states ex with connected := b } ex').price = (states ex').price ∧
      (Function.update states ex { states ex with connected := b } ex').updatedAt =
        (states ex').updatedAt := by
  by_cases hex : ex' = ex
  · subst hex
    simp
  · simp [hex]

theorem tracked_scheduleReconnect (hrun : t.running = true)
    (h : Tracked mean { t with reconnecting := Function.update t.reconnecting ex true }) :
    Tracked mean (t.scheduleReconnect ex) := by
  rw [scheduleReconnect, if_pos hrun]
  exact h

/-- A step of the tracker keeps the invariant. -/
theorem Tracked.step (h : t.Tracked mean) {i : Input} (hs : t.step mean number i = some t') :
    t'.Tracked mean := by
  cases i with
  | start throws =>
    obtain rfl := Option.some.inj hs
    exact h.start throws
  | stop =>
    obtain rfl := Option.some.inj hs
    exact h.stop
  | opened id =>
    simp only [PriceTracker.step] at hs
    split at hs
    · rename_i ex hlive
      obtain rfl := Option.some.inj hs
      have hrun := h.running_of_live hlive (by simp)
      have hsock := h.wired.only id ex .connecting hlive (by simp)
      have hw := h.wired.phase .open hlive (.inl (by simp))
      refine ⟨⟨hw.socket, hw.only, fun ex' id' hp => ?_, hw.unused⟩, ⟨fun ex' => ?_, fun ex' => ?_, rfl⟩,
        rfl, fun _ hb => hb.elim, h.waiting, fun hfalse => ?_⟩
      · by_cases hex : ex' = ex
        · subst hex
          obtain rfl : id = id' := by simpa [notify] using hp
          exact hsock
        · exact h.wired.ping ex' id' (by simpa [notify, hex] using hp)
      · exact (update_connected t.states ex ex' true).1.trans (h.shown.price ex')
      · exact (update_connected t.states ex ex' true).2.trans (h.shown.updatedAt ex')
      · exact absurd (hfalse.symm.trans hrun) (by simp)
    · cases hs
  | message id data now =>
    simp only [PriceTracker.step] at hs
    split at hs
    · rename_i ex hlive
      have hrun := h.running_of_live hlive (by simp)
      split at hs
      · obtain rfl := Option.some.inj hs
        exact h
      · rename_i price hprice
        obtain rfl := Option.some.inj hs
        refine ⟨⟨h.wired.socket, h.wired.only, h.wired.ping, h.wired.unused⟩,
          ⟨fun ex' => ?_, fun ex' => ?_, rfl⟩, rfl, fun _ hb => hb.elim, h.waiting, fun hfalse => ?_⟩
        · have hold := h.shown.price ex'
          by_cases hex : ex' = ex
          · simp [notify, hex, lastTaken]
          · simpa [notify, hex, Ne.symm hex, lastTaken] using hold
        · have hold := h.shown.updatedAt ex'
          by_cases hex : ex' = ex
          · simp [notify, hex, lastTaken]
          · simpa [notify, hex, Ne.symm hex, lastTaken] using hold
        · exact absurd (hfalse.symm.trans hrun) (by simp)
    · cases hs
  | failed id =>
    simp only [PriceTracker.step] at hs
    split at hs
    · rename_i ex phase hlive
      obtain rfl := Option.some.inj hs
      exact ⟨h.wired.phase _ hlive (.inr rfl), ⟨h.shown.price, h.shown.updatedAt, h.shown.snapshot⟩,
        h.median, h.idle, h.waiting, h.stopped⟩
    · cases hs
  | closed id =>
    simp only [PriceTracker.step] at hs
    split at hs
    · cases hs
    · rename_i ex phase hlive
      by_cases hcur : t.sockets ex = some id
      · rw [if_neg (not_not.mpr hcur)] at hs
        obtain rfl := Option.some.inj hs
        have hrun : t.running = true := by
          by_contra hrun
          have hnone := ((h.stopped (Bool.not_eq_true _ ▸ hrun)).1 ex).1
          exact absurd (hcur.symm.trans hnone) (by simp)
        have hw := (h.wired.closed hlive).2 hcur
        refine tracked_scheduleReconnect hrun ⟨⟨hw.socket, hw.only, hw.ping, hw.unused⟩,
          ⟨fun ex' => (update_connected t.states ex ex' false).1.trans (h.shown.price ex'),
            fun ex' => (update_connected t.states ex ex' false).2.trans (h.shown.updatedAt ex'), rfl⟩,
          rfl, fun _ hb => hb.elim, fun _ ex' _ => ?_, fun hfalse => ?_⟩
        · by_cases hex : ex' = ex
          · simp [notify, hex]
          · simpa [notify, hex] using h.waiting hrun ex' not_false
        · exact absurd (hfalse.symm.trans hrun) (by simp)
      · rw [if_pos hcur] at hs
        obtain rfl := Option.some.inj hs
        exact ⟨(h.wired.closed hlive).1 hcur, ⟨h.shown.price, h.shown.updatedAt, h.shown.snapshot⟩,
          h.median, h.idle, h.waiting, h.stopped⟩
  | reconnect ex throws =>
    simp only [PriceTracker.step] at hs
    by_cases hrec : t.reconnecting ex = true
    · rw [if_pos hrec] at hs
      obtain rfl := Option.some.inj hs
      have hrun : t.running = true := by
        by_contra hrun
        have hnone := ((h.stopped (Bool.not_eq_true _ ▸ hrun)).1 ex).2.1
        exact absurd (hnone.symm.trans hrec) (by simp)
      have hnone : t.sockets ex = none := by
        have hwait := h.waiting hrun ex not_false
        rw [hrec] at hwait
        exact Option.isNone_iff_eq_none.mp hwait.symm
      have hbusy : TrackedBut mean (fun ex' => ex' = ex)
          { t with reconnecting := Function.update t.reconnecting ex false } := by
        refine ⟨⟨h.wired.socket, h.wired.only, h.wired.ping, h.wired.unused⟩,
          ⟨h.shown.price, h.shown.updatedAt, h.shown.snapshot⟩, h.median, ?_, fun _ ex' hne => ?_,
          fun hfalse => absurd (hfalse.symm.trans hrun) (by simp)⟩
        · rintro ex' rfl
          exact ⟨hnone, by simp⟩
        · simpa [hne] using h.waiting hrun ex' not_false
      refine TrackedBut.mono (hbusy.connectExchange _ rfl hrun throws).1 fun ex' => ?_
      simp
    · rw [if_neg hrec] at hs
      cases hs

/-! ## The ping intervals -/

/-- An interval is set when its socket opens, and each one that runs is the one in hand. -/
structure Pings (t : PriceTracker) : Prop where
  opened : ∀ ex id, t.pinging ex = some id →
    ∃ phase, t.live id = some (ex, phase) ∧ phase ≠ .connecting
  held : ∀ e ∈ t.intervals, t.pinging e.1 = some e.2
  nodup : t.intervals.Nodup

/-- The sockets change, the intervals do not. -/
theorem Pings.sockets (h : t.Pings) (hpinging : t'.pinging = t.pinging)
    (hintervals : t'.intervals = t.intervals)
    (hlive : ∀ ex id phase, t.pinging ex = some id → t.live id = some (ex, phase) →
      phase ≠ .connecting → ∃ phase', t'.live id = some (ex, phase') ∧ phase' ≠ .connecting) :
    t'.Pings := by
  refine ⟨fun ex id hp => ?_, hintervals ▸ hpinging ▸ h.held, hintervals ▸ h.nodup⟩
  rw [hpinging] at hp
  obtain ⟨phase, hl, hphase⟩ := h.opened ex id hp
  exact hlive ex id phase hp hl hphase

/-- The interval in hand is cleared. -/
theorem Pings.clear (h : t.Pings) (ex : Exchange) :
    Pings { t with pinging := Function.update t.pinging ex none, intervals := t.clearPing ex } := by
  have hsub : (t.clearPing ex).Sublist t.intervals := by
    unfold clearPing
    split
    · exact .refl _
    · exact List.erase_sublist
  refine ⟨fun ex' id hp => ?_, fun e he => ?_, h.nodup.sublist hsub⟩
  · by_cases hex : ex' = ex
    · simp [hex] at hp
    · exact h.opened ex' id (by simpa [hex] using hp)
  · have hp := h.held e (hsub.subset he)
    have hex : e.1 ≠ ex := by
      rintro rfl
      rw [clearPing, hp] at he
      exact (h.nodup.mem_erase_iff.mp he).1 rfl
    simpa [hex] using hp

theorem Pings.cleanupSocket (h : t.Pings) (ex : Exchange) : (t.cleanupSocket ex).Pings := by
  refine (h.clear ex).sockets rfl rfl fun ex' id' phase _ hlive hphase => ?_
  have hlive : t.live id' = some (ex', phase) := hlive
  unfold PriceTracker.cleanupSocket
  cases hid : t.sockets ex with
  | none => exact ⟨phase, hlive, hphase⟩
  | some id =>
    by_cases hne : id' = id
    · subst hne
      exact ⟨.closing, by simp [hlive], by simp⟩
    · exact ⟨phase, by simpa [hne] using hlive, hphase⟩

theorem pings_scheduleReconnect (h : t.Pings) (ex : Exchange) : (t.scheduleReconnect ex).Pings := by
  unfold scheduleReconnect
  split
  · exact ⟨h.opened, h.held, h.nodup⟩
  · exact h

theorem Pings.connectExchange (hw : t.Wired) (h : t.Pings) (ex : Exchange) (throws : Bool) :
    (t.connectExchange ex throws).Wired ∧ (t.connectExchange ex throws).Pings := by
  unfold PriceTracker.connectExchange
  split
  · have hwired := hw.cleanupSocket ex
    have hpings := h.cleanupSocket ex
    cases throws with
    | true =>
      rw [if_pos rfl]
      refine ⟨?_, pings_scheduleReconnect hpings ex⟩
      unfold scheduleReconnect
      split
      · exact ⟨hwired.socket, hwired.only, hwired.ping, hwired.unused⟩
      · exact hwired
    | false =>
      rw [if_neg Bool.false_ne_true]
      refine ⟨hwired.connect (by simp [sockets_cleanupSocket]), hpings.sockets rfl rfl ?_⟩
      intro ex' id phase _ hlive hphase
      have hne : id ≠ (t.cleanupSocket ex).nextSocket := by
        rintro rfl
        exact absurd (hlive.symm.trans (hwired.unused _ (le_refl _))) (by simp)
      exact ⟨phase, by simpa [hne] using hlive, hphase⟩
  · exact ⟨hw, h⟩

theorem Pings.foldl_connectExchange (throws : Exchange → Bool) (exchanges : List Exchange)
    (hw : t.Wired) (h : t.Pings) :
    (exchanges.foldl (fun t ex => t.connectExchange ex (throws ex)) t).Pings := by
  induction exchanges generalizing t with
  | nil => exact h
  | cons ex rest ih =>
    obtain ⟨hw', h'⟩ := Pings.connectExchange hw h ex (throws ex)
    exact ih hw' h'

theorem Pings.foldl_stopExchange (exchanges : List Exchange) (h : t.Pings) :
    (exchanges.foldl stopExchange t).Pings := by
  induction exchanges generalizing t with
  | nil => exact h
  | cons ex rest ih =>
    have hclean := h.cleanupSocket ex
    have hstop : (t.stopExchange ex).Pings := ⟨hclean.opened, hclean.held, hclean.nodup⟩
    exact ih hstop

/-- A socket that has not been open has no interval, and its exchange has none in hand. -/
theorem Pings.pinging_of_connecting (h : t.Pings) (hw : t.Wired) {id : ℕ}
    (hlive : t.live id = some (ex, .connecting)) : t.pinging ex = none := by
  by_contra hsome
  obtain ⟨id', hp⟩ := Option.ne_none_iff_exists'.mp hsome
  have hsock := hw.only id ex .connecting hlive (by simp)
  obtain rfl := Option.some.inj (hsock.symm.trans (hw.ping ex id' hp))
  obtain ⟨phase, hl, hphase⟩ := h.opened ex id hp
  obtain ⟨-, rfl⟩ := Prod.mk.inj (Option.some.inj (hlive.symm.trans hl))
  exact hphase rfl

/-- A socket opens, and its interval is set. -/
theorem Pings.open (h : t.Pings) (hw : t.Wired) {id : ℕ}
    (hlive : t.live id = some (ex, .connecting)) : Pings { t with
      live := Function.update t.live id (some (ex, .open))
      pinging := Function.update t.pinging ex (some id)
      intervals := (ex, id) :: t.intervals } := by
  have hnone := h.pinging_of_connecting hw hlive
  refine ⟨fun ex' id' hp => ?_, fun e he => ?_, List.nodup_cons.mpr ⟨fun hmem => ?_, h.nodup⟩⟩
  · by_cases hex : ex' = ex
    · subst hex
      obtain rfl : id = id' := by simpa using hp
      exact ⟨.open, by simp, by simp⟩
    · obtain ⟨phase, hl, hphase⟩ := h.opened ex' id' (by simpa [hex] using hp)
      have hne : id' ≠ id := by
        rintro rfl
        exact hex (Prod.mk.inj (Option.some.inj (hl.symm.trans hlive))).1
      exact ⟨phase, by simpa [hne] using hl, hphase⟩
  · rcases List.mem_cons.mp he with rfl | he
    · simp
    · have hp := h.held e he
      have hex : e.1 ≠ ex := by
        intro hex
        rw [hex, hnone] at hp
        cases hp
      simpa [hex] using hp
  · have hp := h.held _ hmem
    rw [hnone] at hp
    cases hp

/-- A socket closes; if it is the one in use, its interval is cleared. -/
theorem Pings.closed (h : t.Pings) (hw : t.Wired) {id : ℕ} {phase : SocketPhase}
    (hlive : t.live id = some (ex, phase)) :
    (t.sockets ex ≠ some id → Pings { t with live := Function.update t.live id none }) ∧
      Pings { t with
        live := Function.update t.live id none
        pinging := Function.update t.pinging ex none
        intervals := t.clearPing ex } := by
  have hother : ∀ ex' id' phase', t.live id' = some (ex', phase') →
      (ex' ≠ ex ∨ t.pinging ex' = some id' ∧ t.sockets ex ≠ some id) → id' ≠ id := by
    rintro ex' id' phase' hl hor rfl
    obtain ⟨rfl, -⟩ := Prod.mk.inj (Option.some.inj (hl.symm.trans hlive))
    rcases hor with hex | ⟨hp, hne⟩
    · exact hex rfl
    · exact hne (hw.ping _ _ hp)
  constructor
  · intro hne
    refine h.sockets rfl rfl fun ex' id' phase' hp hl hphase => ?_
    have hid := hother ex' id' phase' hl (.inr ⟨hp, hne⟩)
    exact ⟨phase', by simpa [hid] using hl, hphase⟩
  · refine (h.clear ex).sockets rfl rfl fun ex' id' phase' hp hl hphase => ?_
    have hex : ex' ≠ ex := by
      rintro rfl
      simp at hp
    have hid := hother ex' id' phase' hl (.inl hex)
    exact ⟨phase', by simpa [hid] using hl, hphase⟩

/-- A step of the tracker keeps every interval in hand. -/
theorem Pings.step (htracked : t.Tracked mean) (h : t.Pings) {i : Input}
    (hs : t.step mean number i = some t') : t'.Pings := by
  have hw := htracked.wired
  cases i with
  | start throws =>
    obtain rfl := Option.some.inj hs
    unfold PriceTracker.start
    split
    · exact h
    · exact Pings.foldl_connectExchange throws _ ⟨hw.socket, hw.only, hw.ping, hw.unused⟩
        ⟨h.opened, h.held, h.nodup⟩
  | stop =>
    obtain rfl := Option.some.inj hs
    have hrest : Pings { t with running := false } := ⟨h.opened, h.held, h.nodup⟩
    have hall := Pings.foldl_stopExchange Exchange.all hrest
    exact ⟨hall.opened, hall.held, hall.nodup⟩
  | opened id =>
    simp only [PriceTracker.step] at hs
    split at hs
    · rename_i ex hlive
      obtain rfl := Option.some.inj hs
      have hopen := h.open hw hlive
      exact ⟨hopen.opened, hopen.held, hopen.nodup⟩
    · cases hs
  | message id data now =>
    simp only [PriceTracker.step] at hs
    split at hs
    · split at hs
      · obtain rfl := Option.some.inj hs
        exact h
      · obtain rfl := Option.some.inj hs
        exact ⟨h.opened, h.held, h.nodup⟩
    · cases hs
  | failed id =>
    simp only [PriceTracker.step] at hs
    split at hs
    · rename_i ex phase hlive
      obtain rfl := Option.some.inj hs
      refine h.sockets rfl rfl fun ex' id' phase' _ hl hphase => ?_
      by_cases hid : id' = id
      · subst hid
        obtain ⟨rfl, -⟩ := Prod.mk.inj (Option.some.inj (hl.symm.trans hlive))
        exact ⟨.closing, by simp, by simp⟩
      · exact ⟨phase', by simpa [hid] using hl, hphase⟩
    · cases hs
  | closed id =>
    simp only [PriceTracker.step] at hs
    split at hs
    · cases hs
    · rename_i ex phase hlive
      by_cases hcur : t.sockets ex = some id
      · rw [if_neg (not_not.mpr hcur)] at hs
        obtain rfl := Option.some.inj hs
        have hclosed := (h.closed hw hlive).2
        refine pings_scheduleReconnect ?_ ex
        exact ⟨hclosed.opened, hclosed.held, hclosed.nodup⟩
      · rw [if_pos hcur] at hs
        obtain rfl := Option.some.inj hs
        exact (h.closed hw hlive).1 hcur
  | reconnect ex throws =>
    simp only [PriceTracker.step] at hs
    split at hs
    · obtain rfl := Option.some.inj hs
      refine (Pings.connectExchange ?_ ?_ ex throws).2
      · exact ⟨hw.socket, hw.only, hw.ping, hw.unused⟩
      · exact ⟨h.opened, h.held, h.nodup⟩
    · cases hs

theorem tracked_init : Tracked mean {} where
  wired := ⟨fun _ _ h => absurd h (by simp), fun _ _ _ h => absurd h (by simp),
    fun _ _ h => absurd h (by simp), fun _ _ => rfl⟩
  shown := ⟨fun _ => rfl, fun _ => rfl, rfl⟩
  median := rfl
  idle _ hb := hb.elim
  waiting h := absurd h (by simp)
  stopped _ := ⟨fun _ => ⟨rfl, rfl, rfl⟩, rfl⟩

/-- **Every tracker is tracked**, whatever its sockets do. -/
theorem tracked_of_reachable (h : (priceSystem mean number).Reachable t) : t.Tracked mean :=
  TransitionSystem.invariant (M := priceSystem mean number) (fun _ hi => hi ▸ tracked_init)
    (fun _ _ _ _ ht hs => Tracked.step ht hs) h

/-- Every interval that runs is in hand. -/
theorem pings_of_reachable (h : (priceSystem mean number).Reachable t) : t.Pings := by
  refine TransitionSystem.invariant (M := priceSystem mean number) (P := Pings) ?_ ?_ h
  · rintro _ rfl
    exact ⟨fun _ _ h => absurd h (by simp), fun _ h => absurd h (by simp), List.nodup_nil⟩
  · intro t i t' ht hpings hs
    exact Pings.step (tracked_of_reachable ht) hpings hs

/-- **One connection for each exchange**: a tracker that runs has a socket or a timer for each, and
not both; one that has stopped has nothing and shows nothing.  No exchange ever has two sockets that
are not closing, no ping interval is ever lost, and each that runs writes to the socket in use. -/
theorem one_connection (ht : (priceSystem mean number).Reachable t) (ex : Exchange) :
    (t.running = true → (t.sockets ex).isSome = !t.reconnecting ex) ∧
      (t.running = false → t.sockets ex = none ∧ t.reconnecting ex = false ∧ t.states ex = {}) ∧
      (∀ id id' phase phase', t.live id = some (ex, phase) → t.live id' = some (ex, phase') →
        phase ≠ .closing → phase' ≠ .closing → id = id') ∧
      (∀ id, t.pinging ex = some id → t.sockets ex = some id) ∧
      (∀ id, (ex, id) ∈ t.intervals → t.pinging ex = some id) ∧ t.intervals.Nodup := by
  have h := tracked_of_reachable ht
  have hpings := pings_of_reachable ht
  refine ⟨fun hrun => ?_, fun hstop => (h.stopped hstop).1 ex, ?_, h.wired.ping ex,
    fun id hid => hpings.held (ex, id) hid, hpings.nodup⟩
  · rw [h.waiting hrun ex not_false]
    cases t.sockets ex <;> rfl
  · intro id id' phase phase' hl hl' hp hp'
    have hs := h.wired.only id ex phase hl hp
    exact Option.some.inj (hs.symm.trans (h.wired.only id' ex phase' hl' hp'))

theorem halfway_between {a b : ℚ} (h : a ≤ b) : a ≤ (a + b) / 2 ∧ (a + b) / 2 ≤ b := by
  constructor <;> linarith

/-- The exact mean. -/
def halfway : Mean ℚ := ⟨fun a b => (a + b) / 2, fun h => (halfway_between h).1, fun h => (halfway_between h).2⟩

/-- The numbers of the texts of decimal digits. -/
def wholeNumber : NumberOf := fun s =>
  if s.toList.all Char.isDigit then
    some ((s.toList.foldl (fun n c => 10 * n + (c.toNat - '0'.toNat)) 0 : ℕ) : ℚ)
  else none

/-- A connection that fails and is made again. -/
def sampleReconnect : List Input :=
  [.start fun _ => false, .opened 0, .failed 0, .closed 0, .reconnect .upbit false]

theorem one_connection_sample : ∃ t, (priceSystem halfway wholeNumber).run {} sampleReconnect = some t ∧
    t.running = true ∧ t.sockets .upbit = some 3 ∧ t.reconnecting .upbit = false := by
  have hrun : ((priceSystem halfway wholeNumber).run {} sampleReconnect).map
      (fun t => (t.running, t.sockets .upbit)) = some (true, some 3) := by
    decide +kernel
  obtain ⟨t, ht, hfacts⟩ := Option.map_eq_some_iff.mp hrun
  have hreach : (priceSystem halfway wholeNumber).Reachable t :=
    TransitionSystem.Reachable.run (.init rfl) ht
  obtain ⟨hr, hs⟩ := Prod.mk.inj hfacts
  have hone := (one_connection hreach .upbit).1 hr
  rw [hs] at hone
  exact ⟨t, ht, hr, hs, by simpa using hone⟩

/-- The prices that have been received within `maxAgeMs` and since the last start, the last of each
exchange. -/
def freshTaken (taken : List (Exchange × ℚ × ℤ)) (now maxAgeMs : ℤ) : List ℚ :=
  Exchange.all.filterMap fun ex =>
    (lastTaken taken ex).bind fun m => if now - m.2 ≤ maxAgeMs then some m.1 else none

theorem fresh_eq (h : t.Shown) (now maxAgeMs : ℤ) :
    (Exchange.all.filterMap fun ex =>
      let e := t.snapshot.exchanges ex
      if e.updatedAt.any fun at' => now - at' ≤ maxAgeMs then e.price else none) =
      freshTaken t.taken now maxAgeMs := by
  unfold freshTaken
  refine List.filterMap_congr fun ex _ => ?_
  dsimp only
  rw [h.snapshot, h.price, h.updatedAt]
  cases lastTaken t.taken ex with
  | none => rfl
  | some m => simp

/-- **What the price rests on**: there is one as soon as enough sources have said something lately,
and fewer than half of them, however wrong, do not move it past what the others say. -/
theorem freshPrice_robust (ht : (priceSystem mean number).Reachable t) (now maxAgeMs : ℤ)
    (minSources : ℕ) :
    (freshPrice mean t.snapshot now maxAgeMs minSources = none ↔
        (freshTaken t.taken now maxAgeMs).length < minSources ∨
          freshTaken t.taken now maxAgeMs = []) ∧
      ∀ price, freshPrice mean t.snapshot now maxAgeMs minSources = some price → ∀ a b,
        (2 * (freshTaken t.taken now maxAgeMs).countP (· < a) <
            (freshTaken t.taken now maxAgeMs).length → a ≤ price) ∧
          (2 * (freshTaken t.taken now maxAgeMs).countP (b < ·) <
            (freshTaken t.taken now maxAgeMs).length → price ≤ b) := by
  have hfresh := fresh_eq (tracked_of_reachable ht).shown now maxAgeMs
  unfold freshPrice
  rw [hfresh]
  dsimp only
  by_cases hfew : (freshTaken t.taken now maxAgeMs).length < minSources
  · rw [if_pos hfew]
    exact ⟨by simp [hfew], fun _ h => absurd h (by simp)⟩
  · rw [if_neg hfew]
    refine ⟨?_, fun price hp a b => ⟨median_ge hp, median_le hp⟩⟩
    have hsome := median_isSome mean (freshTaken t.taken now maxAgeMs)
    rw [← Option.not_isSome_iff_eq_none, hsome, not_not]
    simp [hfew]

/-- Three prices, one of them wrong. -/
def samplePrices : List Input :=
  [.start fun _ => false, .opened 0, .opened 1, .opened 2,
    .message 0 (.obj [("type", .str "ticker"), ("trade_price", .num (.finite 100))]) 1,
    .message 1 (.obj [("type", .str "ticker"), ("content", .obj [("closePrice", .str "7")])]) 2,
    .message 2 (.obj [("response_type", .str "DATA"), ("data", .obj [("last", .str "101")])]) 3]

theorem freshPrice_robust_sample : ∃ t, (priceSystem halfway wholeNumber).run {} samplePrices = some t ∧
    freshPrice halfway t.snapshot 4 60000 2 = some 100 ∧
      freshTaken t.taken 4 60000 = [100, 7, 101] ∧
        ∀ price, freshPrice halfway t.snapshot 4 60000 2 = some price → 100 ≤ price ∧ price ≤ 101 := by
  have hrun : ((priceSystem halfway wholeNumber).run {} samplePrices).map
      (fun t => (freshPrice halfway t.snapshot 4 60000 2, freshTaken t.taken 4 60000)) =
      some (some 100, [100, 7, 101]) := by
    decide +kernel
  obtain ⟨t, ht, hfacts⟩ := Option.map_eq_some_iff.mp hrun
  obtain ⟨hp, hfresh⟩ := Prod.mk.inj hfacts
  have hreach : (priceSystem halfway wholeNumber).Reachable t :=
    TransitionSystem.Reachable.run (.init rfl) ht
  refine ⟨t, ht, hp, hfresh, fun price hprice => ?_⟩
  have hbounds := (freshPrice_robust hreach 4 60000 2).2 price hprice 100 101
  rw [hfresh] at hbounds
  exact ⟨hbounds.1 (by decide +kernel), hbounds.2 (by decide +kernel)⟩

end PriceTracker

end LnPay
