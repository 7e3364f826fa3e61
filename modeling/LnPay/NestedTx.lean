/-
# Nested transactions (`daemon/src/db/index.ts`)

Code inside `Db.tx` is a `Code`: it runs statements, throws, catches what is
thrown, and opens further transactions.  `Code.exec` carries it out with the
counter `depth`, from which `tx` picks the statements it sends:

  depth 0      BEGIN IMMEDIATE … COMMIT,  or ROLLBACK when the body throws
  depth d > 0  SAVEPOINT spd … RELEASE spd,  or ROLLBACK TO spd; RELEASE spd

`Code.meant` is what it is for: a snapshot is taken, kept over the body, and
restored when the body throws.  The two agree from every state a program can be
in (`nested_tx_refines`).
-/
import LnPay.Savepoints
import LnPay.InboxDispatch
import LnPay.EffectQueue

namespace LnPay

/-! ## Code that uses the database -/

/-- Synchronous code over a database: statements, exceptions and transactions. -/
inductive Code (D : Type) : Type → Type 1
  | pure {α : Type} (a : α) : Code D α
  | bind {α β : Type} (p : Code D α) (k : α → Code D β) : Code D β
  | throw {α : Type} (e : String) : Code D α
  | catching {α : Type} (p : Code D α) (handler : String → Code D α) : Code D α
  | statement {α : Type} (f : D → Except String (α × D)) : Code D α
  | tx {α : Type} (body : Code D α) : Code D α

/-- `Db`: the connection and the depth of the transaction. -/
structure NestedDb (D : Type) where
  raw : SqlConnection D
  depth : ℕ

section Exec

variable {D α β : Type}

/-- `raw.exec` of statements, one after the other up to the first that fails. -/
def NestedDb.rawExec (db : NestedDb D) : List SqlControl → Except String Unit × NestedDb D
  | [] => (.ok (), db)
  | c :: rest =>
    match db.raw.control c with
    | .ok raw => NestedDb.rawExec { db with raw := raw } rest
    | .error e => (.error e, db)

/-- The savepoint of a transaction at this depth; the outermost one has none. -/
def spName (depth : ℕ) : Option String := if depth = 0 then none else some s!"sp{depth}"

/-- What opens a transaction. -/
def opening : Option String → List SqlControl
  | some name => [.savepoint name]
  | none => [.beginImmediate]

/-- What keeps it. -/
def keeping : Option String → List SqlControl
  | some name => [.release name]
  | none => [.commit]

/-- What takes it back. -/
def undoing : Option String → List SqlControl
  | some name => [.rollbackTo name, .release name]
  | none => [.rollback]

/-- The `catch` of `tx`: the writes are taken back and the exception thrown again. -/
def NestedDb.undo (name : Option String) (e : String) (db : NestedDb D) :
    Except String α × NestedDb D :=
  match db.rawExec (undoing name) with
  | (.ok _, db) => (.error e, db)
  | (.error e', db) => (.error e', db)

/-- The `finally` of `tx`. -/
def NestedDb.leave (r : Except String α × NestedDb D) : Except String α × NestedDb D :=
  (r.1, { r.2 with depth := r.2.depth - 1 })

/-- `Db.tx`, given how its body is carried out. -/
def NestedDb.tx (body : NestedDb D → Except String α × NestedDb D) (db : NestedDb D) :
    Except String α × NestedDb D :=
  let name := spName db.depth
  match db.rawExec (opening name) with
  | (.error e, db) => (.error e, db)
  | (.ok _, db) =>
    let db := { db with depth := db.depth + 1 }
    NestedDb.leave (match body db with
      | (.ok a, db) =>
        match db.rawExec (keeping name) with
        | (.ok _, db) => (.ok a, db)
        | (.error e, db) => db.undo name e
      | (.error e, db) => db.undo name e)

/-- Carries code out. -/
def Code.exec {α : Type} : Code D α → NestedDb D → Except String α × NestedDb D
  | .pure a, db => (.ok a, db)
  | .bind p k, db =>
    match p.exec db with
    | (.ok a, db) => (k a).exec db
    | (.error e, db) => (.error e, db)
  | .throw e, db => (.error e, db)
  | .catching p handler, db =>
    match p.exec db with
    | (.ok a, db) => (.ok a, db)
    | (.error e, db) => (handler e).exec db
  | .statement f, db => ((db.raw.statement f).1, { db with raw := (db.raw.statement f).2 })
  | .tx body, db => db.tx body.exec

/-! ## What the code means -/

/-- The reference: a transaction takes a snapshot, and restores it when its body throws.  Only the
outermost one makes its writes durable. -/
def Code.meant {α : Type} : Code D α → Bool → SqlStore D → Except String α × SqlStore D
  | .pure a, _, s => (.ok a, s)
  | .bind p k, inside, s =>
    match p.meant inside s with
    | (.ok a, s) => (k a).meant inside s
    | (.error e, s) => (.error e, s)
  | .throw e, _, s => (.error e, s)
  | .catching p handler, inside, s =>
    match p.meant inside s with
    | (.ok a, s) => (.ok a, s)
    | (.error e, s) => (handler e).meant inside s
  | .statement f, inside, s =>
    match f s.data with
    | .ok (a, data) => (.ok a, s.write inside data)
    | .error e => (.error e, s)
  | .tx body, inside, s =>
    match body.meant true s with
    | (.ok a, s') => (.ok a, if inside then s' else s'.commit)
    | (.error e, _) => (.error e, s)

/-! ### Inside a transaction nothing is durable -/

theorem Code.meant_durable {α : Type} (code : Code D α) (s : SqlStore D) :
    (code.meant true s).2.durable = s.durable ∧ (code.meant true s).2.past = s.past := by
  induction code generalizing s with
  | pure a => exact ⟨rfl, rfl⟩
  | bind p k ihp ihk =>
    unfold Code.meant
    have hp := ihp s
    split
    · rename_i a s' h
      rw [h] at hp
      exact ⟨(ihk a s').1.trans hp.1, (ihk a s').2.trans hp.2⟩
    · rename_i e s' h
      rw [h] at hp
      exact hp
  | throw e => exact ⟨rfl, rfl⟩
  | catching p handler ihp ihh =>
    unfold Code.meant
    have hp := ihp s
    split
    · rename_i a s' h
      rw [h] at hp
      exact hp
    · rename_i e s' h
      rw [h] at hp
      exact ⟨(ihh e s').1.trans hp.1, (ihh e s').2.trans hp.2⟩
  | statement f =>
    unfold Code.meant
    split
    · exact SqlStore.write_durable s _
    · exact ⟨rfl, rfl⟩
  | tx body ih =>
    unfold Code.meant
    have hbody := ih s
    split
    · rename_i a s' h
      rw [h] at hbody
      exact hbody
    · exact ⟨rfl, rfl⟩

/-- Outside every transaction, what is seen is durable. -/
theorem Code.meant_settled {α : Type} (code : Code D α) (s : SqlStore D) (hs : s.data = s.durable) :
    (code.meant false s).2.data = (code.meant false s).2.durable := by
  induction code generalizing s with
  | pure a => exact hs
  | bind p k ihp ihk =>
    unfold Code.meant
    have hp := ihp s hs
    split
    · rename_i a s' h
      rw [h] at hp
      exact ihk a s' hp
    · rename_i e s' h
      rw [h] at hp
      exact hp
  | throw e => exact hs
  | catching p handler ihp ihh =>
    unfold Code.meant
    have hp := ihp s hs
    split
    · rename_i a s' h
      rw [h] at hp
      exact hp
    · rename_i e s' h
      rw [h] at hp
      exact ihh e s' hp
  | statement f =>
    unfold Code.meant
    split
    · exact SqlStore.write_settled s _
    · exact hs
  | tx body ih =>
    unfold Code.meant
    split
    · simp
    · exact hs

/-! ## The counter and the connection -/

/-- Where code can be: `BEGIN` is open exactly when the counter says so, each further transaction
has its savepoint, and outside of all of them what is seen is durable. -/
structure NestedDb.Nested (db : NestedDb D) : Prop where
  begun : db.raw.begun = decide (0 < db.depth)
  savepoints : db.raw.savepoints.length = db.depth - 1
  settled : db.depth = 0 → db.raw.store.data = db.raw.store.durable

/-- The connection as `Db` opens it. -/
def NestedDb.opened (data : D) : NestedDb D := ⟨⟨⟨data, data, []⟩, false, []⟩, 0⟩

theorem NestedDb.nested_opened (data : D) : (NestedDb.opened data).Nested := ⟨rfl, rfl, fun _ => rfl⟩

/-- The same place in the code, with other data. -/
def NestedDb.withStore (db : NestedDb D) (s : SqlStore D) : NestedDb D :=
  { db with raw := { db.raw with store := s } }

@[simp] theorem NestedDb.withStore_store (db : NestedDb D) (s : SqlStore D) :
    (db.withStore s).raw.store = s := rfl
@[simp] theorem NestedDb.withStore_begun (db : NestedDb D) (s : SqlStore D) :
    (db.withStore s).raw.begun = db.raw.begun := rfl
@[simp] theorem NestedDb.withStore_savepoints (db : NestedDb D) (s : SqlStore D) :
    (db.withStore s).raw.savepoints = db.raw.savepoints := rfl
@[simp] theorem NestedDb.withStore_depth (db : NestedDb D) (s : SqlStore D) :
    (db.withStore s).depth = db.depth := rfl
@[simp] theorem NestedDb.withStore_withStore (db : NestedDb D) (s s' : SqlStore D) :
    (db.withStore s).withStore s' = db.withStore s' := rfl

namespace NestedDb.Nested

variable {db : NestedDb D}

theorem inside (h : db.Nested) : db.raw.inside = decide (0 < db.depth) := by
  rw [SqlConnection.inside, h.begun]
  by_cases hd : 0 < db.depth
  · simp [hd]
  · have hnil : db.raw.savepoints = [] := List.length_eq_zero_iff.mp (by rw [h.savepoints]; omega)
    simp [hd, hnil]

theorem outermost (h : db.Nested) (hd : db.depth = 0) :
    db = ⟨⟨db.raw.store, false, []⟩, 0⟩ := by
  have hnil : db.raw.savepoints = [] := List.length_eq_zero_iff.mp (by rw [h.savepoints, hd])
  have hbegun : db.raw.begun = false := by rw [h.begun, hd]; rfl
  rcases db with ⟨⟨s, b, l⟩, d⟩
  cases hnil
  cases hbegun
  cases hd
  rfl

/-- Code keeps the place it is in. -/
theorem withStore (h : db.Nested) {s : SqlStore D}
    (hs : db.depth = 0 → s.data = s.durable) : (db.withStore s).Nested :=
  ⟨h.begun, h.savepoints, hs⟩

end NestedDb.Nested

/-- How code is carried out where it agrees with what it means. -/
def Code.Refines (code : Code D α) : Prop :=
  ∀ db : NestedDb D, db.Nested →
    code.exec db =
      ((code.meant (decide (0 < db.depth)) db.raw.store).1,
        db.withStore (code.meant (decide (0 < db.depth)) db.raw.store).2)

/-- What code leaves behind is again where code can be. -/
theorem Code.nested_meant (code : Code D α) {db : NestedDb D} (h : db.Nested) :
    (db.withStore (code.meant (decide (0 < db.depth)) db.raw.store).2).Nested := by
  apply h.withStore
  intro hd
  have hout : decide (0 < db.depth) = false := by simp [hd]
  rw [hout]
  exact code.meant_settled _ (h.settled hd)

/-! ### One transaction -/

/-- The outermost transaction, over a body that agrees with what it means. -/
theorem NestedDb.tx_outermost {body : Code D α} (hbody : body.Refines) (s : SqlStore D)
    (hs : s.data = s.durable) :
    NestedDb.tx body.exec ⟨⟨s, false, []⟩, 0⟩ =
      (((Code.tx body).meant false s).1, ⟨⟨((Code.tx body).meant false s).2, false, []⟩, 0⟩) := by
  have hin : NestedDb.Nested (⟨⟨s, true, []⟩, 1⟩ : NestedDb D) := ⟨rfl, rfl, by simp⟩
  have hrun := hbody _ hin
  have hdurable := body.meant_durable s
  simp only [show decide (0 < (⟨⟨s, true, []⟩, 1⟩ : NestedDb D).depth) = true from rfl] at hrun
  rw [Code.meant]
  simp only [NestedDb.tx, spName, opening, NestedDb.rawExec, SqlConnection.control,
    SqlConnection.inside, hrun, if_true, if_false, List.isEmpty_nil, Bool.not_true, Bool.or_false,
    Bool.false_eq_true, Nat.zero_add]
  rcases hm : body.meant true s with ⟨r, s'⟩
  rw [hm] at hdurable
  cases r with
  | ok a =>
    simp [keeping, NestedDb.rawExec, SqlConnection.control, SqlConnection.inside,
      NestedDb.leave, NestedDb.withStore]
  | error e =>
    have hback : ({ s' with data := s'.durable } : SqlStore D) = s := by
      rw [show s'.durable = s.durable from hdurable.1, show s'.past = s.past from hdurable.2]
      rcases s with ⟨data, durable, past⟩
      cases hs
      rfl
    simp [undoing, NestedDb.undo, NestedDb.rawExec, SqlConnection.control, SqlConnection.inside,
      NestedDb.leave, NestedDb.withStore, hback]

/-- A transaction inside another one, likewise. -/
theorem NestedDb.tx_inner {body : Code D α} (hbody : body.Refines) {db : NestedDb D}
    (h : db.Nested) (hd : 0 < db.depth) :
    NestedDb.tx body.exec db =
      (((Code.tx body).meant true db.raw.store).1,
        db.withStore ((Code.tx body).meant true db.raw.store).2) := by
  rcases db with ⟨⟨s, begun, savepoints⟩, depth⟩
  have hbegun : begun = true := h.begun.trans (decide_eq_true hd)
  subst hbegun
  obtain ⟨name, hname⟩ : ∃ name, spName depth = some name :=
    ⟨_, if_neg (Nat.pos_iff_ne_zero.mp hd)⟩
  have hin : NestedDb.Nested
      (⟨⟨s, true, (name, s.data) :: savepoints⟩, depth + 1⟩ : NestedDb D) := by
    refine ⟨by simp, ?_, by simp⟩
    have hlen : savepoints.length = depth - 1 := h.savepoints
    have hd' : 0 < depth := hd
    simp only [List.length_cons, hlen]
    omega
  have hrun := hbody _ hin
  have hdurable := body.meant_durable s
  simp only [Nat.succ_pos, decide_true] at hrun
  rw [Code.meant]
  simp only [NestedDb.tx, hname, opening, NestedDb.rawExec, SqlConnection.control, hrun]
  rcases hm : body.meant true s with ⟨r, s'⟩
  rw [hm] at hdurable
  -- the savepoint of this transaction is the innermost one again
  have hrelease : ∀ s'' : SqlStore D, SqlConnection.control
      ⟨s'', true, (name, s.data) :: savepoints⟩ (.release name) = .ok ⟨s'', true, savepoints⟩ :=
    fun s'' => SqlConnection.control_release rfl rfl
  have hrollback : SqlConnection.control ⟨s', true, (name, s.data) :: savepoints⟩
      (.rollbackTo name) = .ok ⟨{ s' with data := s.data }, true, (name, s.data) :: savepoints⟩ :=
    SqlConnection.control_rollbackTo rfl
  cases r with
  | ok a => simp [keeping, NestedDb.rawExec, hrelease, NestedDb.leave, NestedDb.withStore]
  | error e =>
    have hback : ({ s' with data := s.data } : SqlStore D) = s := by
      rw [show s'.durable = s.durable from hdurable.1, show s'.past = s.past from hdurable.2]
    simp [undoing, NestedDb.undo, NestedDb.rawExec, hrelease, hrollback, NestedDb.leave,
      NestedDb.withStore, hback]

theorem Code.refines_tx {body : Code D α} (hbody : body.Refines) : (Code.tx body).Refines := by
  intro db h
  rw [Code.exec]
  by_cases hd : 0 < db.depth
  · rw [NestedDb.tx_inner hbody h hd, decide_eq_true hd]
  · have hzero : db.depth = 0 := by omega
    rw [decide_eq_false hd, h.outermost hzero]
    exact NestedDb.tx_outermost hbody _ (h.settled hzero)

/-! ### Every program -/

/-- Carrying code out agrees with what it means, wherever it runs. -/
theorem Code.refines (code : Code D α) : code.Refines := by
  induction code with
  | pure a => exact fun db _ => rfl
  | throw e => exact fun db _ => rfl
  | bind p k ihp ihk =>
    intro db h
    have hnested := p.nested_meant h
    rw [Code.exec, Code.meant, ihp db h]
    rcases hp : p.meant (decide (0 < db.depth)) db.raw.store with ⟨r, s⟩
    rw [hp] at hnested
    cases r with
    | ok a => exact ihk a _ hnested
    | error e => rfl
  | catching p handler ihp ihh =>
    intro db h
    have hnested := p.nested_meant h
    rw [Code.exec, Code.meant, ihp db h]
    rcases hp : p.meant (decide (0 < db.depth)) db.raw.store with ⟨r, s⟩
    rw [hp] at hnested
    cases r with
    | ok a => rfl
    | error e => exact ihh e _ hnested
  | statement f =>
    intro db h
    rw [Code.exec, Code.meant, SqlConnection.statement, h.inside]
    cases f db.raw.store.data with
    | ok r => rfl
    | error e => rfl
  | tx body ih => exact Code.refines_tx ih

/-- The outermost transaction commits once, or leaves everything as it was. -/
theorem Code.meant_tx_outermost (body : Code D α) (s : SqlStore D) :
    (∃ a, ((Code.tx body).meant false s).1 = .ok a ∧
      ((Code.tx body).meant false s).2 =
        ⟨(body.meant true s).2.data, (body.meant true s).2.data, s.durable :: s.past⟩) ∨
    (∃ e, ((Code.tx body).meant false s).1 = .error e ∧ ((Code.tx body).meant false s).2 = s) := by
  have hdurable := body.meant_durable s
  rw [Code.meant]
  rcases hm : body.meant true s with ⟨r, s'⟩
  rw [hm] at hdurable
  cases r with
  | ok a =>
    left
    refine ⟨a, rfl, ?_⟩
    simp only [SqlStore.commit, Bool.false_eq_true, if_false]
    rw [show s'.durable = s.durable from hdurable.1, show s'.past = s.past from hdurable.2]
  | error e => exact Or.inr ⟨e, rfl, rfl⟩

/-- **Nested transactions refine a snapshot stack.**  Whatever a program writes, throws and catches,
and wherever it runs, it ends as the reference does; the counter, `BEGIN` and the savepoints are as
before; inside a transaction nothing became durable, and an outermost one commits once at its end. -/
theorem nested_tx_refines (code : Code D α) (db : NestedDb D) (h : db.Nested) :
    (code.exec db).1 = (code.meant (decide (0 < db.depth)) db.raw.store).1 ∧
    (code.exec db).2.raw.store = (code.meant (decide (0 < db.depth)) db.raw.store).2 ∧
    (code.exec db).2.depth = db.depth ∧
    (code.exec db).2.raw.begun = db.raw.begun ∧
    (code.exec db).2.raw.savepoints = db.raw.savepoints ∧
    (code.exec db).2.Nested ∧
    (0 < db.depth → (code.exec db).2.raw.store.durable = db.raw.store.durable ∧
      (code.exec db).2.raw.store.past = db.raw.store.past) ∧
    (db.depth = 0 → ∀ body, code = .tx body →
      (∃ a, (code.exec db).1 = .ok a ∧ (code.exec db).2.raw.store =
        ⟨(body.meant true db.raw.store).2.data, (body.meant true db.raw.store).2.data,
          db.raw.store.durable :: db.raw.store.past⟩) ∨
      (∃ e, (code.exec db).1 = .error e ∧ (code.exec db).2.raw.store = db.raw.store)) := by
  rw [code.refines db h]
  refine ⟨rfl, rfl, rfl, rfl, rfl, code.nested_meant h, ?_, ?_⟩
  · intro hd
    rw [decide_eq_true hd]
    exact code.meant_durable db.raw.store
  · intro hd body hcode
    have hout : decide (0 < db.depth) = false := by simp [hd]
    rw [hout, hcode]
    exact body.meant_tx_outermost db.raw.store

/-- A write, and a nested transaction that throws after another write and is caught. -/
theorem nested_tx_refines_sample :
    (NestedDb.opened 0).Nested ∧
    ((Code.tx (.bind (.statement fun n : ℕ => .ok ((), n + 1)) fun _ =>
      .catching (.tx (.bind (.statement fun n => .ok ((), n + 10)) fun _ => .throw "no"))
        fun _ => .pure ())).exec (.opened 0)).2.raw.store = ⟨1, 1, [0]⟩ :=
  ⟨NestedDb.nested_opened 0, (nested_tx_refines _ _ (NestedDb.nested_opened 0)).2.1⟩

/-! ## What the rest of the daemon takes a transaction to be -/

/-- Code inside a transaction, as a program of the data. -/
def Code.program (code : Code D α) : Program D α := fun data =>
  ((code.meant true ⟨data, data, []⟩).1, (code.meant true ⟨data, data, []⟩).2.data)

/-- A nested transaction is `tx` of what its body is. -/
theorem Code.program_tx (body : Code D α) : (Code.tx body).program = LnPay.tx body.program := by
  funext data
  rw [Code.program, Code.meant, LnPay.tx, Code.program]
  rcases body.meant true ⟨data, data, []⟩ with ⟨r, s'⟩
  cases r with
  | ok a => rfl
  | error e => rfl

/-- Code that does what a function of the data does, when it is not undone. -/
def Code.Realises (code : Code D Unit) (f : D → Except String D) : Prop :=
  ∀ s : SqlStore D, (∀ d, f s.data = .ok d → code.meant true s = (.ok (), { s with data := d })) ∧
    ∀ e, f s.data = .error e → (code.meant true s).1 = .error e

/-- A transaction that is the outermost one: committed, or without a trace. -/
def committed (r : Except String D) (s : SqlStore D) : Except String Unit × SqlStore D :=
  match r with
  | .ok d => (.ok (), SqlStore.commit { s with data := d })
  | .error e => (.error e, s)

theorem Code.Realises.tx {code : Code D Unit} {f : D → Except String D} (h : code.Realises f)
    (s : SqlStore D) : (Code.tx code).meant false s = committed (f s.data) s := by
  obtain ⟨hok, herror⟩ := h s
  rw [Code.meant]
  cases hf : f s.data with
  | ok d =>
    rw [hok d hf]
    rfl
  | error e =>
    have he := herror e hf
    rcases hm : code.meant true s with ⟨r, s'⟩
    rw [hm] at he
    cases he
    rfl

/-- A write, then more code. -/
theorem Code.Realises.write {code : Code D Unit} {f : D → Except String D} (h : code.Realises f)
    (g : D → D) :
    Code.Realises (.bind (.statement fun d => .ok ((), g d)) fun _ => code) fun d => f (g d) := by
  intro s
  have hwritten := h { s with data := g s.data }
  refine ⟨fun d hd => ?_, fun e he => ?_⟩
  · rw [Code.meant, Code.meant]
    exact hwritten.1 d hd
  · rw [Code.meant, Code.meant]
    exact hwritten.2 e he

end Exec

/-! ### The dispatcher and the effect worker -/

section Callers

variable {D T R : Type} {kinds : String → Bool}

/-- `Dispatcher.process` of an event that has a handler. -/
def processCode (handler : Code (InboxDb D) HandlerResult) (id : String) (nowMs : ℤ) :
    Code (InboxDb D) Unit :=
  .catching
    (.tx (.bind handler fun result =>
      .statement fun db => .ok ((), closeEvent id result.outcome nowMs db)))
    fun m => .statement fun db => .ok ((), closeEvent id ("error:" ++ m) nowMs db)

/-- What `process` leaves, from what the handler came back with. -/
def processed (id : String) (nowMs : ℤ) (before after : InboxDb D) :
    Except String HandlerResult → InboxDb D
  | .ok result => closeEvent id result.outcome nowMs after
  | .error m => closeEvent id ("error:" ++ m) nowMs before

/-- Either the handler's writes are committed together with the closing of its event, or of them
there is no trace and the event is closed as an error. -/
theorem processCode_meant (handler : Code (InboxDb D) HandlerResult) (id : String) (nowMs : ℤ)
    (s : SqlStore (InboxDb D)) :
    (processCode handler id nowMs).meant false s =
      (.ok (), SqlStore.commit { s with
        data := processed id nowMs s.data (handler.meant true s).2.data (handler.meant true s).1 }) := by
  have hdurable := handler.meant_durable s
  rw [processCode, Code.meant, Code.meant, Code.meant]
  rcases hm : handler.meant true s with ⟨r, s'⟩
  rw [hm] at hdurable
  obtain ⟨h₁, h₂⟩ : s'.durable = s.durable ∧ s'.past = s.past := hdurable
  cases r with
  | ok result => simp [Code.meant, SqlStore.write, SqlStore.commit, processed, h₁, h₂]
  | error m => simp [Code.meant, SqlStore.write, processed]

/-- The callbacks of an executor, as code. -/
structure EffectCallbacks (T R : Type) where
  onDone : String → R → Code (QueueDb T) Unit
  onDead : String → String → Code (QueueDb T) Unit
  onRetry : String → String → Code (QueueDb T) Unit

/-- They do what the callbacks of the model do. -/
structure EffectCallbacks.Realise (cb : EffectCallbacks T R) (ex : EffectExecutor kinds T R)
    (now : ℤ) : Prop where
  onDone : ∀ payload result, (cb.onDone payload result).Realises ((ex.onDone payload result).run now)
  onDead : ∀ payload error, (cb.onDead payload error).Realises ((ex.onDead payload error).run now)
  onRetry : ∀ payload error,
    (cb.onRetry payload error).Realises ((ex.onRetry payload error).run now)

/-- `kill`. -/
def killCode (cb : EffectCallbacks T R) (row : EffectRow) (attempts : ℕ) (error : String)
    (now : ℤ) : Code (QueueDb T) Unit :=
  .tx (.bind (.statement fun db => .ok ((), markDead row attempts error now db)) fun _ =>
    cb.onDead row.payload error)

/-- `retry`. -/
def retryCode (ex : EffectExecutor kinds T R) (cb : EffectCallbacks T R) (row : EffectRow)
    (error : String) (delayMs : Option ℤ) (now : ℤ) : Code (QueueDb T) Unit :=
  if ex.givesUp (row.attempts + 1) then
    killCode cb row (row.attempts + 1) (toString (row.attempts + 1) ++ "회 실패: " ++ error) now
  else .tx (.bind (.statement fun db => .ok ((), putOffEffect row error delayMs now db)) fun _ =>
    cb.onRetry row.payload error)

/-- `runOne` from the answer of the executor on. -/
def recordCode (ex : EffectExecutor kinds T R) (cb : EffectCallbacks T R) (row : EffectRow)
    (outcome : EffectOutcome R) (now : ℤ) : Code (QueueDb T) Unit :=
  match outcome with
  | .done result =>
    .catching
      (.tx (.bind (.statement fun db => .ok ((), finishEffect row.id .done none now db)) fun _ =>
        cb.onDone row.payload result))
      fun e => retryCode ex cb row ("onDone 실패: " ++ e) none now
  | .dead error => killCode cb row row.attempts error now
  | .retry error delayMs => retryCode ex cb row error delayMs now
  | .threw error => retryCode ex cb row error none now

variable {ex : EffectExecutor kinds T R} {cb : EffectCallbacks T R} {now : ℤ}

theorem killCode_meant (h : cb.Realise ex now) (row : EffectRow) (attempts : ℕ) (error : String)
    (s : SqlStore (QueueDb T)) : (killCode cb row attempts error now).meant false s =
      committed (killEffect ex row attempts error now s.data) s :=
  ((h.onDead row.payload error).write _).tx s

theorem retryCode_meant (h : cb.Realise ex now) (row : EffectRow) (error : String)
    (delayMs : Option ℤ) (s : SqlStore (QueueDb T)) :
    (retryCode ex cb row error delayMs now).meant false s =
      committed (retryEffect ex row error delayMs now s.data) s := by
  rw [retryCode, retryEffect]
  split
  · exact killCode_meant h row _ _ s
  · exact ((h.onRetry row.payload error).write _).tx s

/-- What the effect worker records is one commit, or nothing. -/
theorem recordCode_meant (h : cb.Realise ex now) (row : EffectRow) (outcome : EffectOutcome R)
    (s : SqlStore (QueueDb T)) : (recordCode ex cb row outcome now).meant false s =
      committed (recordOutcome ex row outcome now s.data) s := by
  cases outcome with
  | done result =>
    rw [recordCode, recordOutcome, Code.meant, ((h.onDone row.payload result).write _).tx s]
    cases (ex.onDone row.payload result).run now (finishEffect row.id .done none now s.data) with
    | ok db => rfl
    | error e => exact retryCode_meant h row _ none s
  | dead error => exact killCode_meant h row _ error s
  | retry error delayMs => exact retryCode_meant h row error delayMs s
  | threw error => exact retryCode_meant h row error none s

end Callers

end LnPay
