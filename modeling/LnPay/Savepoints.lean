/-
# A connection with savepoints

One connection of an SQL database, as the engine documents it: outside a
transaction every statement is committed by itself; inside one, `COMMIT` keeps
the writes, `ROLLBACK` takes them all back, and a savepoint marks a state to
come back to.

  BEGIN ─ SAVEPOINT a ─ … ─ SAVEPOINT b ─ … ─ RELEASE b ─ … ─ COMMIT
                ↑__________ ROLLBACK TO a ___________|

`past` is written only: it shows that nothing was committed in between.
-/
import Mathlib.Tactic.Common

/-! ## The stored data -/

/-- What the connection sees, what is durable, and what was durable before, last first. -/
structure SqlStore (D : Type) where
  data : D
  durable : D
  past : List D

namespace SqlStore

variable {D : Type}

/-- What the connection sees becomes durable. -/
def commit (s : SqlStore D) : SqlStore D := ⟨s.data, s.data, s.durable :: s.past⟩

@[simp] theorem commit_data (s : SqlStore D) : s.commit.data = s.data := rfl
@[simp] theorem commit_durable (s : SqlStore D) : s.commit.durable = s.data := rfl
@[simp] theorem commit_past (s : SqlStore D) : s.commit.past = s.durable :: s.past := rfl

/-- A statement writes; outside a transaction it is committed at once. -/
def write (inside : Bool) (s : SqlStore D) (data : D) : SqlStore D :=
  if inside then { s with data := data } else commit { s with data := data }

theorem write_durable (s : SqlStore D) (data : D) :
    (s.write true data).durable = s.durable ∧ (s.write true data).past = s.past := by
  simp [write]

theorem write_settled (s : SqlStore D) (data : D) :
    (s.write false data).data = (s.write false data).durable := by
  simp [write]

end SqlStore

/-! ## Transaction statements -/

/-- The statements that open and close transactions. -/
inductive SqlControl
  | beginImmediate
  | commit
  | rollback
  | savepoint (name : String)
  | release (name : String)
  | rollbackTo (name : String)
  deriving DecidableEq

/-- A connection: whether `BEGIN` is open, and the open savepoints, innermost first, each with the
data as it was when it was set. -/
structure SqlConnection (D : Type) where
  store : SqlStore D
  begun : Bool
  savepoints : List (String × D)

namespace SqlConnection

variable {D : Type} {c : SqlConnection D} {name : String}

/-- A savepoint outside `BEGIN` opens a transaction, too. -/
def inside (c : SqlConnection D) : Bool := c.begun || !c.savepoints.isEmpty

/-- The savepoints from the innermost one of that name on. -/
def fromSavepoint (name : String) (c : SqlConnection D) : List (String × D) :=
  c.savepoints.dropWhile fun p => p.1 ≠ name

/-- `RELEASE`: the savepoint and those inside it are forgotten.  With the last one a transaction
that no `BEGIN` opened is committed. -/
def released (c : SqlConnection D) (rest : List (String × D)) : SqlConnection D :=
  if c.begun || !rest.isEmpty then { c with savepoints := rest }
  else ⟨c.store.commit, false, []⟩

/-- One control statement; one that fails changes nothing. -/
def control (c : SqlConnection D) : SqlControl → Except String (SqlConnection D)
  | .beginImmediate =>
    if c.inside then .error "cannot start a transaction within a transaction"
    else .ok { c with begun := true }
  | .commit =>
    if c.inside then .ok ⟨c.store.commit, false, []⟩
    else .error "cannot commit - no transaction is active"
  | .rollback =>
    if c.inside then .ok ⟨{ c.store with data := c.store.durable }, false, []⟩
    else .error "cannot rollback - no transaction is active"
  | .savepoint name => .ok { c with savepoints := (name, c.store.data) :: c.savepoints }
  | .release name =>
    match c.fromSavepoint name with
    | [] => .error ("no such savepoint: " ++ name)
    | _ :: rest => .ok (c.released rest)
  | .rollbackTo name =>
    match c.fromSavepoint name with
    | [] => .error ("no such savepoint: " ++ name)
    | p :: rest => .ok { c with store := { c.store with data := p.2 }, savepoints := p :: rest }

/-- One statement that reads and writes; one that fails changes nothing. -/
def statement {α : Type} (f : D → Except String (α × D)) (c : SqlConnection D) :
    Except String α × SqlConnection D :=
  match f c.store.data with
  | .ok (a, data) => (.ok a, { c with store := c.store.write c.inside data })
  | .error e => (.error e, c)

/-! ### The innermost savepoint -/

theorem fromSavepoint_head {saved : D} {rest : List (String × D)}
    (h : c.savepoints = (name, saved) :: rest) :
    c.fromSavepoint name = (name, saved) :: rest := by
  rw [fromSavepoint, h, List.dropWhile_cons_of_neg]
  simp

theorem control_release {saved : D} {rest : List (String × D)} (hbegun : c.begun = true)
    (h : c.savepoints = (name, saved) :: rest) :
    c.control (.release name) = .ok { c with savepoints := rest } := by
  simp only [control, fromSavepoint_head h, released, hbegun, Bool.true_or, if_true]

theorem control_rollbackTo {saved : D} {rest : List (String × D)}
    (h : c.savepoints = (name, saved) :: rest) :
    c.control (.rollbackTo name) =
      .ok { c with store := { c.store with data := saved } } := by
  simp only [control, fromSavepoint_head h]
  rw [← h]

end SqlConnection
