/-
# The queue and the hold table

What the ledger operations of the hold machine read and write, for every track:
which effect carries which dedup key, what `enqueue` and `finish` leave pending,
which rows the queries return, what a plan writes.
-/
import LnPay.HoldInvoice

namespace LnPay

variable {T E : Type}

/-! ## The queue -/

section Queue

variable [OwnEffect E]

@[simp] theorem Db.enqueue_holds (e : Effect E) (db : Db T E) :
    (db.enqueue e).holds = db.holds := by
  unfold Db.enqueue
  split <;> rfl

@[simp] theorem Db.enqueue_track (e : Effect E) (db : Db T E) :
    (db.enqueue e).track = db.track := by
  unfold Db.enqueue
  split <;> rfl

theorem Db.mem_enqueue {e e' : Effect E} {db : Db T E} (h : e' ∈ (db.enqueue e).effects) :
    e' ∈ db.effects ∨ e' = e := by
  unfold Db.enqueue at h
  split at h
  · exact .inl h
  · simpa using h

@[simp] theorem dispose_holds (h : Hash) (a : DisposeAction) (db : Db T E) :
    (dispose h a db).holds = db.holds := Db.enqueue_holds _ _

@[simp] theorem dispose_track (h : Hash) (a : DisposeAction) (db : Db T E) :
    (dispose h a db).track = db.track := Db.enqueue_track _ _

end Queue

section Finish

variable [DecidableEq E]

@[simp] theorem Db.finish_holds (e : Effect E) (db : Db T E) : (db.finish e).holds = db.holds := rfl

@[simp] theorem Db.finish_track (e : Effect E) (db : Db T E) : (db.finish e).track = db.track := rfl

theorem Db.mem_of_mem_finish {e e' : Effect E} {db : Db T E} (h : e' ∈ (db.finish e).effects) :
    e' ∈ db.effects := List.mem_of_mem_erase h

end Finish

/-! ## Reading the table -/

theorem mem_holdsOf {orderId : OrderId} {purposes : List HoldPurpose} {db : Db T E} {r : HoldRow} :
    r ∈ holdsOf orderId purposes db ↔
      db.holds.find r.paymentHash = some r ∧ r.orderId = orderId ∧ r.purpose ∈ purposes := by
  simp only [holdsOf, List.mem_filter, List.mem_insertionSort, decide_eq_true_eq,
    KeyedTable.mem_rows_iff, and_assoc]

theorem isLiveHold_iff {r : HoldRow} : isLiveHold r = true ↔
    r.status ≠ .settled ∧ r.status ≠ .cancelled := by
  unfold isLiveHold
  cases r.status <;> simp

@[simp] theorem setHold_effects (now : ℤ) (h : Hash) (patch : HoldPatch) (db : Db T E) :
    (setHold now h patch db).effects = db.effects := rfl

@[simp] theorem setHold_track (now : ℤ) (h : Hash) (patch : HoldPatch) (db : Db T E) :
    (setHold now h patch db).track = db.track := rfl

theorem find_setHold (now : ℤ) (h : Hash) (patch : HoldPatch) (db : Db T E) (h' : Hash) :
    (setHold now h patch db).holds.find h' =
      if h' = h then (db.holds.find h').map (·.patched patch now) else db.holds.find h' :=
  KeyedTable.find_update db.holds h (·.patched patch now) (fun _ => rfl) h'

/-! ## Planning -/

/-- What `plan` derives for a new invoice: the next attempt and the hash of its label. -/
def HoldPlan.Derives (keys : KeyDerivation) (p : HoldPlan) (db : Db T E) (hash : Hash)
    (attempt : ℕ) : Prop :=
  attempt = nextAttempt p.purpose p.orderId p.party db ∧
    ∃ scope, scopeOf p.purpose p.orderId p.party = .ok scope ∧
      hash = keys.paymentHashOf (preimageLabel scope attempt)

/-- What a successful plan writes: a new row under a free hash, and the effect that makes it. -/
theorem plan_spec [OwnEffect E] {keys : KeyDerivation} {now : ℤ} {p : HoldPlan} {db db' : Db T E}
    {row : HoldRow} (h : plan keys now p db = .ok (row, db')) :
    ∃ hash attempt holds, row = p.row hash attempt now ∧ p.Derives keys db hash attempt ∧
      db.holds.insert row = some holds ∧
      db' = { db with holds := holds }.enqueue (.holdCreate row.paymentHash) := by
  unfold plan at h
  obtain ⟨scope, hscope, h⟩ := Except.bind_eq_ok_iff.mp h
  obtain ⟨db₁, hins, h⟩ := Except.bind_eq_ok_iff.mp h
  cases h
  unfold insertHold at hins
  split at hins
  · cases hins
  · split at hins
    · cases hins
    · rename_i holds hholds
      cases hins
      exact ⟨_, _, holds, rfl, ⟨rfl, scope, hscope, rfl⟩, hholds, rfl⟩

end LnPay
