/-
# The effect queue (`daemon/src/effects.ts`, `daemon/src/db/index.ts`)

An effect is stacked inside the transaction that wants it, carried out outside of
any transaction, and its outcome is recorded in one more:

  enqueue ─ pending ─(run)→ done / dead, or pending again, later

* `TxBody` is code that runs inside a transaction: it may throw, and it reaches
  the queue through `enqueue` and `expedite` only,
* `record` is what `runOne` does once the executor has answered,
* `QueueWorld.step` lets the worker, the other transactions and crashes
  interleave at every await.

The table of the other data is a parameter.
-/
import LnPay.KeyedTable
import LnPay.Transaction
import LnPay.TransitionSystem
import Mathlib.Algebra.Group.Int.Defs

namespace LnPay

/-! ## Rows -/

/-- The status of an effect. -/
inductive EffectStatus
  | pending | done | dead
  deriving DecidableEq, Repr

/-- A row of `effects`. -/
structure EffectRow where
  id : ℕ
  kind : String
  dedup : Option String
  payload : String
  status : EffectStatus
  attempts : ℕ
  nextAt : ℤ
  lastError : Option String
  createdAt : ℤ
  finishedAt : Option ℤ
  deriving DecidableEq, Repr

/-- The database as the queue sees it: its table, and the rest. -/
structure QueueDb (T : Type) where
  effects : KeyedTable EffectRow.id
  rest : T

/-- `backoffMs`: five seconds, doubled each time, at most ten minutes. -/
def backoffMs (attempts : ℕ) : ℤ := min (5000 * 2 ^ (attempts - 1)) (10 * 60000)

theorem backoffMs_pos (attempts : ℕ) : 0 < backoffMs attempts := by
  unfold backoffMs
  have h : (0 : ℤ) < 2 ^ (attempts - 1) := Int.pow_pos (by decide)
  omega

/-! ## The queue inside a transaction -/

section Tx

variable {T : Type}

/-- The next `AUTOINCREMENT` id; no row is ever deleted. -/
def nextEffectId (effects : KeyedTable EffectRow.id) : ℕ :=
  match (effects.rows.map EffectRow.id).max? with
  | none => 1
  | some n => n + 1

/-- The row an intent is stacked as. -/
def newEffect (id : ℕ) (now : ℤ) (kind payload : String) (dedup : Option String) (delayMs : ℤ) :
    EffectRow where
  id := id
  kind := kind
  dedup := dedup
  payload := payload
  status := .pending
  attempts := 0
  nextAt := now + delayMs
  lastError := none
  createdAt := now
  finishedAt := none

/-- `enqueue`: `false` when a pending effect has the same dedup key. -/
def enqueueEffect (kinds : String → Bool) (now : ℤ) (kind payload : String)
    (dedup : Option String) (delayMs : ℤ) (db : QueueDb T) : Except String (Bool × QueueDb T) :=
  if kinds kind = false then .error ("모르는 효과: " ++ kind)
  else if dedup ≠ none ∧ ∃ r ∈ db.effects.rows, r.status = .pending ∧ r.dedup = dedup then
    .ok (false, db)
  else
    match db.effects.insert (newEffect (nextEffectId db.effects) now kind payload dedup delayMs) with
    | none => .ok (false, db)
    | some effects => .ok (true, { db with effects := effects })

/-- `expedite`: a pending effect is due now. -/
def expediteEffect (now : ℤ) (dedup : String) (db : QueueDb T) : QueueDb T :=
  { db with
    effects := db.effects.map
      (fun r => if r.dedup = some dedup ∧ r.status = .pending then { r with nextAt := now } else r)
      fun r => by split <;> rfl }

theorem find_expediteEffect (now : ℤ) (dedup : String) (db : QueueDb T) (id : ℕ) :
    (expediteEffect now dedup db).effects.find id = (db.effects.find id).map fun r =>
      if r.dedup = some dedup ∧ r.status = .pending then { r with nextAt := now } else r :=
  KeyedTable.find_map _ _ (fun r => by split <;> rfl) _

/-- What code inside a transaction does to the database, step by step. -/
inductive QueueStep (kinds : String → Bool) (now : ℤ) : QueueDb T → QueueDb T → Prop
  | write (db : QueueDb T) (rest : T) : QueueStep kinds now db { db with rest := rest }
  | enqueue (db db' : QueueDb T) (kind payload : String) (dedup : Option String) (delayMs : ℤ)
      (stacked : Bool) (h : enqueueEffect kinds now kind payload dedup delayMs db = .ok (stacked, db')) :
      QueueStep kinds now db db'
  | expedite (db : QueueDb T) (dedup : String) : QueueStep kinds now db (expediteEffect now dedup db)

/-- Code that runs inside a transaction. -/
structure TxBody (kinds : String → Bool) (T : Type) where
  run : ℤ → QueueDb T → Except String (QueueDb T)
  steps : ∀ now db db', run now db = .ok db' →
    Relation.ReflTransGen (QueueStep kinds now) db db'

/-- The body that does nothing: a callback that is not given. -/
def TxBody.skip (kinds : String → Bool) (T : Type) : TxBody kinds T where
  run _ db := .ok db
  steps := by
    intro now db db' h
    rw [Except.ok.inj h]

/-- `Db.tx`: a body that throws leaves the database as it was. -/
def TxBody.commit {kinds : String → Bool} (body : TxBody kinds T) (now : ℤ) (db : QueueDb T) :
    QueueDb T :=
  match body.run now db with
  | .ok db' => db'
  | .error _ => db

end Tx

/-! ## Executors -/

/-- What `run` comes back with; `threw` is a rejected promise. -/
inductive EffectOutcome (R : Type)
  | done (result : R)
  | retry (error : String) (delayMs : Option ℤ)
  | dead (error : String)
  | threw (error : String)

/-- The callbacks of an executor, and how many failures it takes. -/
structure EffectExecutor (kinds : String → Bool) (T R : Type) where
  onDone : String → R → TxBody kinds T
  onDead : String → String → TxBody kinds T
  onRetry : String → String → TxBody kinds T
  maxAttempts : Option ℕ

section Worker

variable {T R : Type} {kinds : String → Bool}

/-- The row of an effect that is finished. -/
def EffectRow.finish (r : EffectRow) (status : EffectStatus) (error : Option String) (now : ℤ) :
    EffectRow :=
  { r with status := status, lastError := error.or r.lastError, finishedAt := some now }

/-- `finish`. -/
def finishEffect (id : ℕ) (status : EffectStatus) (error : Option String) (now : ℤ)
    (db : QueueDb T) : QueueDb T :=
  { db with effects := db.effects.update id (·.finish status error now) fun _ => rfl }

theorem find_finishEffect (k : ℕ) (status : EffectStatus) (error : Option String) (now : ℤ)
    (db : QueueDb T) (id : ℕ) : (finishEffect k status error now db).effects.find id =
      if id = k then (db.effects.find id).map (·.finish status error now)
      else db.effects.find id :=
  KeyedTable.find_update db.effects k (·.finish status error now) (fun _ => rfl) id

/-- The row of an effect that is put off. -/
def EffectRow.putOff (r : EffectRow) (attempts : ℕ) (nextAt : ℤ) (error : String) : EffectRow :=
  { r with attempts := attempts, nextAt := nextAt, lastError := some error }

/-- The writes of `kill` before its callback. -/
def markDead (row : EffectRow) (attempts : ℕ) (error : String) (now : ℤ) (db : QueueDb T) :
    QueueDb T :=
  finishEffect row.id .dead (some error) now
    { db with
      effects := db.effects.update row.id (fun r => { r with attempts := attempts })
        fun _ => rfl }

theorem find_markDead (row : EffectRow) (attempts : ℕ) (error : String) (now : ℤ) (db : QueueDb T)
    (id : ℕ) : (markDead row attempts error now db).effects.find id =
      if id = row.id then (db.effects.find id).map fun r =>
        { r with attempts := attempts }.finish .dead (some error) now
      else db.effects.find id := by
  rw [markDead, find_finishEffect]
  simp only [KeyedTable.find_update]
  split
  · rw [Option.map_map]
    rfl
  · rfl

/-- `kill`: throws when `onDead` does. -/
def killEffect (ex : EffectExecutor kinds T R) (row : EffectRow) (attempts : ℕ) (error : String)
    (now : ℤ) (db : QueueDb T) : Except String (QueueDb T) :=
  (ex.onDead row.payload error).run now (markDead row attempts error now db)

/-- The writes of `retry` before its callback. -/
def putOffEffect (row : EffectRow) (error : String) (delayMs : Option ℤ) (now : ℤ)
    (db : QueueDb T) : QueueDb T :=
  { db with
    effects := db.effects.update row.id
      (·.putOff (row.attempts + 1) (now + delayMs.getD (backoffMs (row.attempts + 1))) error)
      fun _ => rfl }

theorem find_putOffEffect (row : EffectRow) (error : String) (delayMs : Option ℤ) (now : ℤ)
    (db : QueueDb T) (id : ℕ) : (putOffEffect row error delayMs now db).effects.find id =
      if id = row.id then (db.effects.find id).map
        (·.putOff (row.attempts + 1) (now + delayMs.getD (backoffMs (row.attempts + 1))) error)
      else db.effects.find id :=
  KeyedTable.find_update db.effects row.id
    (·.putOff (row.attempts + 1) (now + delayMs.getD (backoffMs (row.attempts + 1))) error)
    (fun _ => rfl) id

/-- Whether one more failure is the last one. -/
def EffectExecutor.givesUp (ex : EffectExecutor kinds T R) (attempts : ℕ) : Bool :=
  match ex.maxAttempts with
  | some n => n ≤ attempts
  | none => false

/-- `retry`: throws when the callback that goes with it does. -/
def retryEffect (ex : EffectExecutor kinds T R) (row : EffectRow) (error : String)
    (delayMs : Option ℤ) (now : ℤ) (db : QueueDb T) : Except String (QueueDb T) :=
  if ex.givesUp (row.attempts + 1) then
    killEffect ex row (row.attempts + 1) (toString (row.attempts + 1) ++ "회 실패: " ++ error) now db
  else (ex.onRetry row.payload error).run now (putOffEffect row error delayMs now db)

/-- `runOne` from the answer of the executor on: `onDone` is caught, what `retry` and `kill` throw
is not. -/
def recordOutcome (ex : EffectExecutor kinds T R) (row : EffectRow) (outcome : EffectOutcome R)
    (now : ℤ) (db : QueueDb T) : Except String (QueueDb T) :=
  match outcome with
  | .done result =>
    match (ex.onDone row.payload result).run now (finishEffect row.id .done none now db) with
    | .ok db' => .ok db'
    | .error e => retryEffect ex row ("onDone 실패: " ++ e) none now db
  | .dead error => killEffect ex row row.attempts error now db
  | .retry error delayMs => retryEffect ex row error delayMs now db
  | .threw error => retryEffect ex row error none now db

/-- `ORDER BY next_at, id`. -/
def EffectRow.before (a b : EffectRow) : Prop :=
  a.nextAt < b.nextAt ∨ (a.nextAt = b.nextAt ∧ a.id ≤ b.id)

instance : DecidableRel EffectRow.before := fun _ _ => inferInstanceAs (Decidable (_ ∨ _))

/-- The batch of `runDue`. -/
def dueEffects (now : ℤ) (limit : ℕ) (db : QueueDb T) : List EffectRow :=
  ((db.effects.rows.filter fun r => r.status = .pending ∧ r.nextAt ≤ now).insertionSort
    EffectRow.before).take limit

/-! ## The worker among the others -/

/-- The daemon's database and what its effect worker holds in memory: the rest of the batch, and
whether its first effect is being carried out.  `executed` and `applied` are written only: the
executor runs that were begun, and the effects whose `onDone` was committed. -/
structure QueueWorld (T : Type) where
  db : QueueDb T
  now : ℤ
  batch : Option (List EffectRow)
  executing : Bool
  executed : List ℕ
  applied : List ℕ

/-- One step of somebody. -/
inductive QueueInput (kinds : String → Bool) (T R : Type)
  | tick (ms : ℕ)
  | transact (body : TxBody kinds T)
  | runDue (limit : ℕ)
  | execute
  | answer (outcome : EffectOutcome R)
  | crash

/-- One step; `none` when it cannot be taken now.  What a bookkeeping callback throws ends the run
of `runDue`. -/
def QueueWorld.step (executors : String → EffectExecutor kinds T R) (w : QueueWorld T) :
    QueueInput kinds T R → Option (QueueWorld T)
  | .tick ms => some { w with now := w.now + ms }
  | .transact body => some { w with db := body.commit w.now w.db }
  | .runDue limit =>
    match w.batch with
    | some _ => none
    | none => some { w with batch := some (dueEffects w.now limit w.db), executing := false }
  | .execute =>
    match w.batch, w.executing with
    | some [], _ => some { w with batch := none }
    | some (row :: rest), false =>
      if kinds row.kind then
        some { w with executing := true, executed := w.executed ++ [row.id] }
      else
        some { w with
          db := finishEffect row.id .dead (some ("모르는 효과: " ++ row.kind)) w.now w.db
          batch := some rest }
    | _, _ => none
  | .answer outcome =>
    match w.batch, w.executing with
    | some (row :: rest), true =>
      match recordOutcome (executors row.kind) row outcome w.now w.db with
      | .error _ => some { w with batch := none, executing := false }
      | .ok db =>
        let applied := match outcome with
          | .done result =>
            match ((executors row.kind).onDone row.payload result).run w.now
                (finishEffect row.id .done none w.now w.db) with
            | .ok _ => w.applied ++ [row.id]
            | .error _ => w.applied
          | _ => w.applied
        some { w with db := db, batch := some rest, executing := false, applied := applied }
    | _, _ => none
  | .crash => some { w with batch := none, executing := false }

end Worker

/-- The queue of a daemon that starts on an empty table. -/
def queueSystem {T R : Type} {kinds : String → Bool}
    (executors : String → EffectExecutor kinds T R) :
    TransitionSystem (QueueWorld T) (QueueInput kinds T R) where
  init w := ∃ rest now, w = ⟨⟨.empty, rest⟩, now, none, false, [], []⟩
  step := QueueWorld.step executors

end LnPay
