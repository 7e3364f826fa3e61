/-
# Receiving and dispatching (`daemon/src/nostr/ingress.ts`, `daemon/src/dispatch.ts`,
`daemon/src/db/index.ts`)

Relays deliver events in any order and any number of times.  `accept` puts each
one into the inbox once and moves the resubscription cursor; `runPending` hands
the open ones to their handlers, each inside a transaction that also closes it:

  delivered ─accept→ open ─(handler, one transaction)→ closed ok / ignored
                       └──(handler throws, rolled back)→ closed error

Code in a transaction is a `Program`: a throw leaves its writes behind, and it is
`tx` that takes them back.  The tables the handlers write are a parameter.
-/
import LnPay.InboxEvent
import LnPay.KeyedTable
import LnPay.TransitionSystem
import Mathlib.Data.Rat.Defs
import Mathlib.Algebra.Order.Ring.Rat

namespace LnPay

/-! ## Transactions -/

/-- Code that writes a database and may throw. -/
abbrev Program (D α : Type) := D → Except String α × D

/-- `Db.tx`: what is thrown is thrown again, after the writes are rolled back. -/
def tx {D α : Type} (p : Program D α) : Program D α := fun db =>
  match p db with
  | (.ok a, db') => (.ok a, db')
  | (.error e, _) => (.error e, db)

section Tx

variable {D α : Type} {p : Program D α} {db db' : D}

theorem tx_ok {a : α} (h : p db = (.ok a, db')) : tx p db = (.ok a, db') := by
  rw [tx, h]

theorem tx_error {e : String} (h : p db = (.error e, db')) : tx p db = (.error e, db) := by
  rw [tx, h]

end Tx

/-- A connection: the data as it is now, and as it was at the open savepoints, innermost first. -/
structure Connection (D : Type) where
  data : D
  savepoints : List D

/-- `Db.tx` as it is carried out: a savepoint is set (`BEGIN` for the outermost one), and released
or rolled back to. -/
def Connection.tx {D α : Type} (p : Program (Connection D) α) : Program (Connection D) α := fun c =>
  match p { c with savepoints := c.data :: c.savepoints } with
  | (.ok a, c') => (.ok a, { c' with savepoints := c'.savepoints.tail })
  | (.error e, c') => (.error e, ⟨c'.savepoints.headD c'.data, c'.savepoints.tail⟩)

/-- A program of a connection does what a program of the data does, and leaves the savepoints as
it found them. -/
def Implements {D α : Type} (p : Program (Connection D) α) (q : Program D α) : Prop :=
  ∀ c, p c = ((q c.data).1, ⟨(q c.data).2, c.savepoints⟩)

/-- Nested to any depth, the savepoints come to `tx`. -/
theorem Implements.tx {D α : Type} {p : Program (Connection D) α} {q : Program D α}
    (h : Implements p q) : Implements (Connection.tx p) (tx q) := by
  intro c
  unfold Connection.tx LnPay.tx
  rw [h]
  cases hq : q c.data with
  | mk r data =>
    cases r with
    | ok a => simp
    | error e => simp

/-! ## The inbox -/

/-- An event as a relay delivers it. -/
structure RelayEvent where
  id : String
  pubkey : Pubkey
  kind : ℕ
  createdAt : ℚ
  tags : List (List String)
  content : String
  sig : String
  deriving DecidableEq

/-- A row of `inbox`; the event is kept in full. -/
structure InboxRow where
  event : RelayEvent
  receivedAt : ℤ
  processedAt : Option ℤ
  outcome : Option String

/-- The primary key. -/
def InboxRow.id (r : InboxRow) : String := r.event.id

/-- The inbox, the cursor in `kv`, and the tables of the handlers. -/
structure InboxDb (D : Type) where
  inbox : KeyedTable InboxRow.id
  cursor : Option ℚ
  data : D

/-- `IngressOptions` and the hold of the dispatcher; `epoch` is the resolved one. -/
structure InboxOptions where
  appPubkey : Pubkey
  epoch : ℚ
  holdMs : ℤ
  /-- the signature check of the library -/
  verifyEvent : RelayEvent → Bool

/-- `MESSAGE_KIND`. -/
def messageKind : ℕ := 3838

/-- `MAX_FUTURE_SKEW_SEC`. -/
def maxFutureSkewSec : ℤ := 5 * 60

section Inbox

variable {D : Type} (opts : InboxOptions)

/-- What `accept` asks of an event. -/
def admits (e : RelayEvent) : Bool :=
  e.kind = messageKind && e.tags.any (fun t => t[0]? = some "p" && t[1]? = some opts.appPubkey) &&
    opts.epoch ≤ e.createdAt && opts.verifyEvent e

/-- Where the next subscription starts from, before the lookback. -/
def InboxDb.cursorOr (db : InboxDb D) : ℚ := db.cursor.getD opts.epoch

/-- The cursor once an event is in: one that is too far ahead does not move it. -/
def movedCursor (nowMs : ℤ) (e : RelayEvent) (db : InboxDb D) : Option ℚ :=
  if e.createdAt ≤ ((nowMs / 1000 + maxFutureSkewSec : ℤ) : ℚ) ∧ db.cursorOr opts < e.createdAt then
    some e.createdAt
  else db.cursor

/-- `accept`: the database with the event, when it is a new one. -/
def accept (nowMs : ℤ) (e : RelayEvent) (db : InboxDb D) : Option (InboxDb D) :=
  if admits opts e then
    (db.inbox.insert ⟨e, nowMs, none, none⟩).map fun inbox =>
      { db with inbox := inbox, cursor := movedCursor opts nowMs e db }
  else none

/-! ## The dispatcher -/

/-- `Handler`: it judges inside a transaction, on the tables of the handlers. -/
abbrev Handler (D : Type) := Program D HandlerResult

/-- The outcome a handler's result is recorded as. -/
def HandlerResult.outcome : HandlerResult → String
  | .ok => "ok"
  | .ignored reason => "ignored:" ++ reason

/-- The outcome of an event nobody handles. -/
def noRoute : String := "ignored:no-route"

/-- `close`. -/
def closeEvent (id outcome : String) (nowMs : ℤ) (db : InboxDb D) : InboxDb D :=
  { db with
    inbox := db.inbox.update id
      (fun r => { r with processedAt := some nowMs, outcome := some outcome }) fun _ => rfl }

/-- The body of the transaction of `process`: the handler, and closing its event. -/
def handleAndClose (handler : Handler D) (id : String) (nowMs : ℤ) : Program (InboxDb D) HandlerResult :=
  fun db =>
    match handler db.data with
    | (.ok result, data) => (.ok result, closeEvent id result.outcome nowMs { db with data := data })
    | (.error e, data) => (.error e, { db with data := data })

/-- `ORDER BY created_at, id`. -/
def InboxRow.before (a b : InboxRow) : Prop :=
  a.event.createdAt < b.event.createdAt ∨
    (a.event.createdAt = b.event.createdAt ∧ a.event.id ≤ b.event.id)

instance : DecidableRel InboxRow.before := fun _ _ => inferInstanceAs (Decidable (_ ∨ _))

/-- The open events that have been held long enough, in order. -/
def eligible (nowMs : ℤ) (db : InboxDb D) : List InboxRow :=
  (db.inbox.rows.filter fun r => r.processedAt = none ∧ r.receivedAt ≤ nowMs - opts.holdMs
    ).insertionSort InboxRow.before

/-- The selection of `runPending`. -/
def pendingEvents (nowMs : ℤ) (limit : ℕ) (db : InboxDb D) : List RelayEvent :=
  ((eligible opts nowMs db).take limit).map InboxRow.event

/-! ## Any sequence of deliveries and crashes -/

/-- The daemon between two of its commits.  `loop` is what a call of `runPending` has still to
process, `thrown` what the handler of the first of these has thrown.  `committed` and `acceptedAt`
are written only: the events whose handler was committed, and the clock at each acceptance. -/
structure InboxWorld (D : Type) where
  db : InboxDb D
  nowMs : ℤ
  loop : Option (List RelayEvent)
  thrown : Option String
  committed : List String
  acceptedAt : List ℤ

/-- One step: a delivery, a transaction of somebody else, a part of `runPending`, or a crash. -/
inductive InboxInput (D : Type)
  | clock (nowMs : ℤ)
  | deliver (e : RelayEvent)
  | transact (write : D → D)
  | runPending (limit : ℕ)
  | process (route : RelayEvent → Option (Handler D))
  | close
  | crash

/-- One step; `none` when it cannot be taken now.  `runPending` does not wait, so that nothing but
the clock and a crash comes between its events. -/
def InboxWorld.step (w : InboxWorld D) : InboxInput D → Option (InboxWorld D)
  | .clock nowMs => some { w with nowMs := nowMs }
  | .deliver e =>
    match w.loop, accept opts w.nowMs e w.db with
    | some _, _ => none
    | none, none => some w
    | none, some db => some { w with db := db, acceptedAt := w.acceptedAt ++ [w.nowMs] }
  | .transact write =>
    match w.loop with
    | some _ => none
    | none => some { w with db := { w.db with data := write w.db.data } }
  | .runPending limit =>
    match w.loop with
    | some _ => none
    | none => some { w with loop := some (pendingEvents opts w.nowMs limit w.db), thrown := none }
  | .process route =>
    match w.loop, w.thrown with
    | some [], _ => some { w with loop := none }
    | some (e :: rest), none =>
      match route e with
      | none => some { w with db := closeEvent e.id noRoute w.nowMs w.db, loop := some rest }
      | some handler =>
        match tx (handleAndClose handler e.id w.nowMs) w.db with
        | (.ok _, db) =>
          some { w with db := db, loop := some rest, committed := w.committed ++ [e.id] }
        | (.error m, db) => some { w with db := db, thrown := some m }
    | _, _ => none
  | .close =>
    match w.loop, w.thrown with
    | some (e :: rest), some m =>
      some { w with
        db := closeEvent e.id ("error:" ++ m) w.nowMs w.db, loop := some rest, thrown := none }
    | _, _ => none
  | .crash => some { w with loop := none, thrown := none }

/-- The daemon from its first start on. -/
def inboxSystem (D : Type) (opts : InboxOptions) :
    TransitionSystem (InboxWorld D) (InboxInput D) where
  init w := ∃ data nowMs, w = ⟨⟨.empty, none, data⟩, nowMs, none, none, [], []⟩
  step := InboxWorld.step opts

end Inbox

end LnPay
