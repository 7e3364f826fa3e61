/-
# One call of `runDue`

The loop of `runDue` awaits `runOne` for each effect of its batch.  `runOne` catches
what `run` and `onDone` throw; `retry` and `kill` call `onRetry` and `onDead` inside
the transaction that puts the effect off, and nobody catches what these throw:

  onRetry throws ─→ the transaction is rolled back ─→ `runDue` ends, the rest waits

* `runBatch` is the loop, with what the others commit while an executor runs,
* `Isolated` is what the loop owes the effects of its batch,
* `Sheltered` is when it keeps that.
-/
import LnPay.EffectQueueLaws

namespace LnPay

variable {T R : Type} {kinds : String → Bool} {db db' : QueueDb T} {now : ℤ} {id : ℕ}

/-! ## The loop -/

/-- How carrying out one effect goes: what the others commit in the meantime, and when, and what
the executor answers, and when. -/
structure Visit (kinds : String → Bool) (T R : Type) where
  meanwhile : List (ℤ × TxBody kinds T)
  now : ℤ
  outcome : EffectOutcome R

/-- The database once the executor has answered. -/
def Visit.waited (v : Visit kinds T R) (db : QueueDb T) : QueueDb T :=
  v.meanwhile.foldl (fun db m => m.2.commit m.1 db) db

variable (executors : String → EffectExecutor kinds T R)

/-- `runOne`. -/
def runOne (row : EffectRow) (v : Visit kinds T R) (db : QueueDb T) : Except String (QueueDb T) :=
  if kinds row.kind then recordOutcome (executors row.kind) row v.outcome v.now (v.waited db)
  else .ok (finishEffect row.id .dead (some ("모르는 효과: " ++ row.kind)) v.now db)

/-- The loop of `runDue`: the database after each effect that was attempted.  The first one whose
`runOne` throws is the last one. -/
def runBatch : List (EffectRow × Visit kinds T R) → QueueDb T → List (QueueDb T)
  | [], _ => []
  | (row, v) :: rest, db =>
    match runOne executors row v db with
    | .ok db' => db' :: runBatch rest db'
    | .error _ => [v.waited db]

/-- The database after the call. -/
def runBatchDb (batch : List (EffectRow × Visit kinds T R)) (db : QueueDb T) : QueueDb T :=
  (runBatch executors batch db).getLast?.getD db

/-! ## What the loop owes its batch -/

/-- The effect is over, or has one more attempt and comes later than `now`. -/
def PutAside (row : EffectRow) (now : ℤ) (db : QueueDb T) : Prop :=
  ∃ r, db.effects.find row.id = some r ∧ (r.status = .done ∨ r.status = .dead ∨
    (r.status = .pending ∧ r.attempts = row.attempts + 1 ∧ now < r.nextAt))

/-- The effect is over, or has one more attempt. -/
def Counted (row : EffectRow) (db : QueueDb T) : Prop :=
  ∃ r, db.effects.find row.id = some r ∧ (r.status = .done ∨ r.status = .dead ∨
    (r.status = .pending ∧ r.attempts = row.attempts + 1))

/-- Every effect of the batch is attempted and put aside, and is so counted after the call. -/
def Isolated (batch : List (EffectRow × Visit kinds T R)) (db : QueueDb T) : Prop :=
  ∀ (k : ℕ) (row : EffectRow) (v : Visit kinds T R), batch[k]? = some (row, v) →
    (∃ dbk, (runBatch executors batch db)[k]? = some dbk ∧ PutAside row v.now dbk) ∧
      Counted row (runBatchDb executors batch db)

/-- The callback of `kill` returns. -/
def KillReturns (ex : EffectExecutor kinds T R) (row : EffectRow) (attempts : ℕ) (error : String)
    (now : ℤ) (db : QueueDb T) : Prop :=
  ∃ db', (ex.onDead row.payload error).run now (markDead row attempts error now db) = .ok db'

/-- The callback of `retry` returns and does not put its own effect forward, and the executor did
not ask for it at once. -/
def RetryReturns (ex : EffectExecutor kinds T R) (row : EffectRow) (error : String)
    (delayMs : Option ℤ) (now : ℤ) (db : QueueDb T) : Prop :=
  if ex.givesUp (row.attempts + 1) then
    KillReturns ex row (row.attempts + 1) (toString (row.attempts + 1) ++ "회 실패: " ++ error) now db
  else
    (∀ ms, delayMs = some ms → 0 < ms) ∧
      ∃ db', (ex.onRetry row.payload error).run now (putOffEffect row error delayMs now db) = .ok db' ∧
        db'.effects.find row.id = (putOffEffect row error delayMs now db).effects.find row.id

/-- The bookkeeping callback that an outcome calls returns. -/
def CallbackReturns (ex : EffectExecutor kinds T R) (row : EffectRow) (outcome : EffectOutcome R)
    (now : ℤ) (db : QueueDb T) : Prop :=
  match outcome with
  | .done result => ∀ e, (ex.onDone row.payload result).run now
      (finishEffect row.id .done none now db) = .error e →
        RetryReturns ex row ("onDone 실패: " ++ e) none now db
  | .dead error => KillReturns ex row row.attempts error now db
  | .retry error delayMs => RetryReturns ex row error delayMs now db
  | .threw error => RetryReturns ex row error none now db

/-- Along the batch, every bookkeeping callback returns. -/
def Sheltered : List (EffectRow × Visit kinds T R) → QueueDb T → Prop
  | [], _ => True
  | (row, v) :: rest, db =>
    (kinds row.kind → CallbackReturns (executors row.kind) row v.outcome v.now (v.waited db)) ∧
      ∀ db', runOne executors row v db = .ok db' → Sheltered rest db'

/-! ## One effect -/

/-- A step of a transaction leaves an effect as it is, or makes it due now. -/
theorem QueueStep.find_due (h : QueueStep kinds now db db') {r : EffectRow}
    (hr : db.effects.find id = some r) :
    db'.effects.find id = some r ∨ ∃ r', db'.effects.find id = some r' ∧ r'.nextAt = now := by
  cases h with
  | write => exact .inl hr
  | enqueue _ _ _ _ _ _ h =>
    rcases enqueueEffect_spec h with rfl | ⟨effects, rfl, -, hins⟩
    · exact .inl hr
    · left
      show effects.find id = some r
      rw [KeyedTable.find_insert hins, if_neg, hr]
      intro he
      have hfree := KeyedTable.find_of_insert hins
      rw [he, hr] at hfree
      cases hfree
  | expedite dedup =>
    rw [find_expediteEffect, hr, Option.map_some]
    split
    · exact .inr ⟨_, rfl, rfl⟩
    · exact .inl rfl

theorem find_due_of_steps (h : Relation.ReflTransGen (QueueStep kinds now) db db') {r : EffectRow}
    (hr : db.effects.find id = some r) :
    db'.effects.find id = some r ∨ ∃ r', db'.effects.find id = some r' ∧ r'.nextAt = now := by
  induction h with
  | refl => exact .inl hr
  | tail _ hstep ih =>
    rcases ih with hs | ⟨s, hs, hnow⟩
    · exact hstep.find_due hs
    · rcases hstep.find_due hs with hs' | hdue
      · exact .inr ⟨s, hs', hnow⟩
      · exact .inr hdue

/-- The row of an effect that was fetched, with what a recording needs of it. -/
def Fetched (row : EffectRow) (db : QueueDb T) : Prop :=
  ∃ r, db.effects.find row.id = some r ∧ r.status = .pending ∧ r.attempts = row.attempts

theorem Fetched.commit {row : EffectRow} (h : Fetched row db) (body : TxBody kinds T) (t : ℤ) :
    Fetched row (body.commit t db) := by
  unfold TxBody.commit
  split
  · rename_i db' hrun
    obtain ⟨r, hr, hp, ha⟩ := h
    obtain ⟨r', hr', hk⟩ := find_kept_of_steps (body.steps _ _ _ hrun) hr
    exact ⟨r', hr', hk.status.trans hp, hk.attempts.trans ha⟩
  · exact h

/-- While an executor runs, its effect stays pending. -/
theorem Fetched.waited {row : EffectRow} (h : Fetched row db) (v : Visit kinds T R) :
    Fetched row (v.waited db) := by
  unfold Visit.waited
  induction v.meanwhile generalizing db with
  | nil => exact h
  | cons m ms ih => exact ih (h.commit m.2 m.1)

theorem Fetched.not_counted {row : EffectRow} (h : Fetched row db) : ¬ Counted row db := by
  obtain ⟨r, hr, hp, ha⟩ := h
  rintro ⟨r', hr', hc⟩
  obtain rfl := Option.some.inj (hr.symm.trans hr')
  rcases hc with hs | hs | ⟨-, hs⟩
  · rw [hp] at hs
    cases hs
  · rw [hp] at hs
    cases hs
  · omega

theorem PutAside.counted {row : EffectRow} {t : ℤ} (h : PutAside row t db) : Counted row db := by
  obtain ⟨r, hr, hs | hs | ⟨hs, ha, -⟩⟩ := h
  · exact ⟨r, hr, .inl hs⟩
  · exact ⟨r, hr, .inr (.inl hs)⟩
  · exact ⟨r, hr, .inr (.inr ⟨hs, ha⟩)⟩

section One

variable {executors} {ex : EffectExecutor kinds T R} {row : EffectRow} {v : Visit kinds T R}
  {outcome : EffectOutcome R} {error : String} {delayMs : Option ℤ} {attempts : ℕ}

/-- `kill` puts its effect aside exactly if it returns. -/
theorem putAside_killEffect (hr : Fetched row db) :
    (∃ db', killEffect ex row attempts error now db = .ok db' ∧ PutAside row now db') ↔
      KillReturns ex row attempts error now db := by
  constructor
  · rintro ⟨db', hk, -⟩
    exact ⟨db', hk⟩
  · rintro ⟨db', hk⟩
    refine ⟨db', hk, ?_⟩
    obtain ⟨r, hr, -⟩ := hr
    have hdead : (markDead row attempts error now db).effects.find row.id =
        some ({ r with attempts := attempts }.finish .dead (some error) now) := by
      rw [find_markDead, if_pos rfl, hr, Option.map_some]
    obtain ⟨r', hr', hkept⟩ := find_kept_of_steps ((ex.onDead _ _).steps _ _ _ hk) hdead
    exact ⟨r', hr', .inr (.inl hkept.status)⟩

/-- `retry` puts its effect aside exactly if its callback returns and leaves it later. -/
theorem putAside_retryEffect (hr : Fetched row db) :
    (∃ db', retryEffect ex row error delayMs now db = .ok db' ∧ PutAside row now db') ↔
      RetryReturns ex row error delayMs now db := by
  unfold retryEffect RetryReturns
  split
  · exact putAside_killEffect hr
  · obtain ⟨r, hr, hp, -⟩ := hr
    have hoff : (putOffEffect row error delayMs now db).effects.find row.id = some (r.putOff
        (row.attempts + 1) (now + delayMs.getD (backoffMs (row.attempts + 1))) error) := by
      rw [find_putOffEffect, if_pos rfl, hr, Option.map_some]
    constructor
    · rintro ⟨db', hok, r', hr', haside⟩
      obtain ⟨q, hq, hkept⟩ := find_kept_of_steps ((ex.onRetry _ _).steps _ _ _ hok) hoff
      obtain rfl := Option.some.inj (hr'.symm.trans hq)
      -- it is pending still, so it is the date that puts it aside
      have hpend : r'.status = .pending := hkept.status.trans hp
      have hlater : now < r'.nextAt := by
        rcases haside with hs | hs | ⟨-, -, hlt⟩
        · rw [hpend] at hs
          cases hs
        · rw [hpend] at hs
          cases hs
        · exact hlt
      rcases find_due_of_steps ((ex.onRetry _ _).steps _ _ _ hok) hoff with hsame | ⟨s, hs, hnow⟩
      · obtain rfl := Option.some.inj (hr'.symm.trans hsame)
        refine ⟨?_, db', hok, hsame.trans hoff.symm⟩
        rintro ms rfl
        have hlater : now < now + ms := hlater
        omega
      · obtain rfl := Option.some.inj (hr'.symm.trans hs)
        omega
    · rintro ⟨hpos, db', hok, hsame⟩
      refine ⟨db', hok, _, hsame.trans hoff, .inr (.inr ⟨hp, rfl, ?_⟩)⟩
      show now < now + delayMs.getD (backoffMs (row.attempts + 1))
      cases hd : delayMs with
      | none =>
        have := backoffMs_pos (row.attempts + 1)
        show now < now + backoffMs (row.attempts + 1)
        omega
      | some ms =>
        have := hpos ms hd
        show now < now + ms
        omega

/-- An outcome is recorded and puts its effect aside exactly if the callback it calls returns. -/
theorem putAside_recordOutcome (hr : Fetched row db) :
    (∃ db', recordOutcome ex row outcome now db = .ok db' ∧ PutAside row now db') ↔
      CallbackReturns ex row outcome now db := by
  cases outcome with
  | done result =>
    cases hdone : (ex.onDone row.payload result).run now (finishEffect row.id .done none now db) with
    | ok db₁ =>
      simp only [recordOutcome, CallbackReturns, hdone]
      constructor
      · rintro - e ⟨⟩
      · intro _
        refine ⟨db₁, rfl, ?_⟩
        obtain ⟨r, hr, -⟩ := hr
        have hfin : (finishEffect row.id .done none now db).effects.find row.id =
            some (r.finish .done none now) := by
          rw [find_finishEffect, if_pos rfl, hr, Option.map_some]
        obtain ⟨r', hr', hkept⟩ := find_kept_of_steps ((ex.onDone _ _).steps _ _ _ hdone) hfin
        exact ⟨r', hr', .inl hkept.status⟩
    | error e =>
      simp only [recordOutcome, CallbackReturns, hdone]
      rw [putAside_retryEffect hr]
      constructor
      · rintro h _ ⟨⟩
        exact h
      · intro h
        exact h e rfl
  | retry error delayMs => exact putAside_retryEffect hr
  | dead error => exact putAside_killEffect hr
  | threw error => exact putAside_retryEffect hr

/-- The same of `runOne`. -/
theorem putAside_runOne (hr : Fetched row db) :
    (∃ db', runOne executors row v db = .ok db' ∧ PutAside row v.now db') ↔
      (kinds row.kind →
        CallbackReturns (executors row.kind) row v.outcome v.now (v.waited db)) := by
  unfold runOne
  split
  · rename_i hkind
    rw [putAside_recordOutcome (hr.waited v)]
    constructor
    · intro h _
      exact h
    · intro h
      exact h hkind
  · rename_i hkind
    constructor
    · intro _ h
      exact absurd h hkind
    · intro _
      obtain ⟨r, hr, -⟩ := hr
      refine ⟨_, rfl, r.finish .dead (some ("모르는 효과: " ++ row.kind)) v.now, ?_, .inr (.inl rfl)⟩
      rw [find_finishEffect, if_pos rfl, hr, Option.map_some]

/-- The other effects are kept, also while the executor runs. -/
theorem find_runOne (h : runOne executors row v db = .ok db') {r : EffectRow} (hne : id ≠ row.id)
    (hr : db.effects.find id = some r) : ∃ r', db'.effects.find id = some r' ∧ r.Kept r' := by
  have hwait : ∀ (ms : List (ℤ × TxBody kinds T)) (db : QueueDb T) (r : EffectRow),
      db.effects.find id = some r → ∃ r', (ms.foldl (fun db m => m.2.commit m.1 db)
        db).effects.find id = some r' ∧ r.Kept r' := by
    intro ms
    induction ms with
    | nil => exact fun db r hr => ⟨r, hr, .refl r⟩
    | cons m ms ih =>
      intro db r hr
      have hone : ∃ r', (m.2.commit m.1 db).effects.find id = some r' ∧ r.Kept r' := by
        unfold TxBody.commit
        split
        · rename_i db' hrun
          exact find_kept_of_steps (m.2.steps _ _ _ hrun) hr
        · exact ⟨r, hr, .refl r⟩
      obtain ⟨r₁, hr₁, hk₁⟩ := hone
      obtain ⟨r', hr', hk'⟩ := ih _ _ hr₁
      exact ⟨r', hr', hk₁.trans hk'⟩
  unfold runOne at h
  split at h
  · obtain ⟨r₁, hr₁, hk₁⟩ := hwait v.meanwhile db r hr
    obtain ⟨r', hr', -, -, -, hk', -⟩ := find_recordOutcome h hr₁
    exact ⟨r', hr', hk₁.trans (hk' hne)⟩
  · obtain rfl := Except.ok.inj h
    exact ⟨r, by rw [find_finishEffect, if_neg hne, hr], .refl r⟩

theorem Fetched.runOne {row' : EffectRow} (hr : Fetched row' db) (hne : row'.id ≠ row.id)
    (h : runOne executors row v db = .ok db') : Fetched row' db' := by
  obtain ⟨r, hr, hp, ha⟩ := hr
  obtain ⟨r', hr', hk⟩ := find_runOne h hne hr
  exact ⟨r', hr', hk.status.trans hp, hk.attempts.trans ha⟩

theorem Counted.runOne {row' : EffectRow} (hr : Counted row' db) (hne : row'.id ≠ row.id)
    (h : runOne executors row v db = .ok db') : Counted row' db' := by
  obtain ⟨r, hr, hs⟩ := hr
  obtain ⟨r', hr', hk⟩ := find_runOne h hne hr
  refine ⟨r', hr', ?_⟩
  rw [hk.status, hk.attempts]
  exact hs

end One

/-! ## The batch -/

section Batch

variable {executors} {row : EffectRow} {v : Visit kinds T R}
  {batch rest : List (EffectRow × Visit kinds T R)}

theorem runBatchDb_cons (h : runOne executors row v db = .ok db') :
    runBatchDb executors ((row, v) :: rest) db = runBatchDb executors rest db' := by
  unfold runBatchDb
  rw [runBatch, h]
  show (db' :: runBatch executors rest db').getLast?.getD db = _
  rw [List.getLast?_cons, Option.getD_some]

/-- What a batch owes, when its first effect is recorded. -/
theorem isolated_cons (h : runOne executors row v db = .ok db') :
    Isolated executors ((row, v) :: rest) db ↔
      PutAside row v.now db' ∧ Counted row (runBatchDb executors rest db') ∧
        Isolated executors rest db' := by
  have hstates : runBatch executors ((row, v) :: rest) db = db' :: runBatch executors rest db' := by
    rw [runBatch, h]
  unfold Isolated
  rw [hstates, runBatchDb_cons h]
  constructor
  · intro hall
    obtain ⟨⟨dbk, hk, haside⟩, hcount⟩ := hall 0 row v rfl
    obtain rfl := Option.some.inj hk
    refine ⟨haside, hcount, ?_⟩
    intro k row' v' hk
    exact hall (k + 1) row' v' hk
  · rintro ⟨haside, hcount, hrest⟩ k row' v' hk
    cases k with
    | zero =>
      cases hk
      exact ⟨⟨db', rfl, haside⟩, hcount⟩
    | succ k => exact hrest k row' v' hk

/-- An effect that is counted stays so while the others are attempted. -/
theorem Counted.runBatchDb (hr : Counted row db) (hne : ∀ p ∈ batch, p.1.id ≠ row.id)
    (hsh : Sheltered executors batch db) (hfetched : ∀ p ∈ batch, Fetched p.1 db)
    (hnd : (batch.map fun p => p.1.id).Nodup) : Counted row (runBatchDb executors batch db) := by
  induction batch generalizing db with
  | nil => exact hr
  | cons p batch ih =>
    obtain ⟨row', v⟩ := p
    have hnd : row'.id ∉ batch.map (fun p => p.1.id) ∧ (batch.map fun p => p.1.id).Nodup :=
      List.nodup_cons.mp hnd
    obtain ⟨db', hok, -⟩ := (putAside_runOne (hfetched (row', v) List.mem_cons_self)).mpr hsh.1
    rw [runBatchDb_cons hok]
    refine ih (hr.runOne (hne _ List.mem_cons_self).symm hok) ?_ (hsh.2 _ hok) ?_ hnd.2
    · intro p hp
      exact hne p (List.mem_cons_of_mem _ hp)
    · intro p hp
      refine (hfetched p (List.mem_cons_of_mem _ hp)).runOne ?_ hok
      intro he
      exact hnd.1 (he ▸ List.mem_map_of_mem hp)

/-- A batch of distinct pending effects gets what it is owed exactly if it is sheltered. -/
theorem isolated_iff (hfetched : ∀ p ∈ batch, Fetched p.1 db)
    (hnd : (batch.map fun p => p.1.id).Nodup) :
    Isolated executors batch db ↔ Sheltered executors batch db := by
  induction batch generalizing db with
  | nil =>
    constructor
    · intro _
      trivial
    · rintro - k row v ⟨⟩
  | cons p batch ih =>
    obtain ⟨row, v⟩ := p
    have hnd : row.id ∉ batch.map (fun p => p.1.id) ∧ (batch.map fun p => p.1.id).Nodup :=
      List.nodup_cons.mp hnd
    have hrow : Fetched row db := hfetched (row, v) List.mem_cons_self
    have hrest : ∀ db', runOne executors row v db = .ok db' → ∀ p ∈ batch, Fetched p.1 db' := by
      intro db' hok p hp
      refine (hfetched p (List.mem_cons_of_mem _ hp)).runOne ?_ hok
      intro he
      exact hnd.1 (he ▸ List.mem_map_of_mem hp)
    constructor
    · intro hiso
      cases hone : runOne executors row v db with
      | error e =>
        -- the call ends here, with the effect as it was
        obtain ⟨⟨dbk, hk, haside⟩, -⟩ := hiso 0 row v rfl
        rw [runBatch, hone] at hk
        obtain rfl := Option.some.inj hk
        exact absurd haside.counted (hrow.waited v).not_counted
      | ok db' =>
        obtain ⟨haside, -, htail⟩ := (isolated_cons hone).mp hiso
        refine ⟨(putAside_runOne hrow).mp ⟨db', hone, haside⟩, ?_⟩
        intro db₁ hok
        obtain rfl := Except.ok.inj (hone.symm.trans hok)
        exact (ih (hrest db' hone) hnd.2).mp htail
    · intro hsh
      obtain ⟨db', hok, haside⟩ := (putAside_runOne hrow).mpr hsh.1
      have htail := hsh.2 db' hok
      refine (isolated_cons hok).mpr ⟨haside, ?_, (ih (hrest db' hok) hnd.2).mpr htail⟩
      refine haside.counted.runBatchDb ?_ htail (hrest db' hok) hnd.2
      intro p hp he
      exact hnd.1 (he ▸ List.mem_map_of_mem hp)

end Batch

/-- The batch of a call of `runDue`, with how carrying out each of its effects goes. -/
def dueVisits (visits : ℕ → Visit kinds T R) (now : ℤ) (limit : ℕ) (db : QueueDb T) :
    List (EffectRow × Visit kinds T R) :=
  (dueEffects now limit db).map fun row => (row, visits row.id)

/-- **A call of `runDue` isolates its effects exactly when no `onRetry` or `onDead` that it calls
throws** (nor asks for the effect at once).  What `run` and `onDone` throw does no harm. -/
theorem isolated_iff_sheltered (visits : ℕ → Visit kinds T R) (limit : ℕ) :
    Isolated executors (dueVisits visits now limit db) db ↔
      Sheltered executors (dueVisits visits now limit db) db := by
  apply isolated_iff
  · intro p hp
    obtain ⟨row, hrow, rfl⟩ := List.mem_map.mp hp
    obtain ⟨hr, hs, -⟩ := mem_dueEffects hrow
    exact ⟨row, hr, hs, rfl⟩
  · have hnd := nodup_dueEffects now limit db
    rw [dueVisits, List.map_map]
    exact hnd

/-! ## A payment whose `onRetry` throws -/

/-- A payment and a publication are due; the payment fails. -/
def sampleFault (id : ℕ) : Visit sampleKinds ℕ Unit where
  meanwhile := []
  now := 10
  outcome := if id = 1 then .retry "no route" none else .done ()

/-- Both were stacked at time zero. -/
def sampleDue : QueueDb ℕ :=
  (TxBody.enqueue "publish" "{}" none 0 : TxBody sampleKinds ℕ).commit 0
    ((TxBody.enqueue "pay" "{}" none 0 : TxBody sampleKinds ℕ).commit 0 ⟨.empty, 0⟩)

/-- The publication is not attempted, and the payment is due again at once. -/
theorem faulty_retry_blocks :
    (dueVisits sampleFault 10 50 sampleDue).length = 2 ∧
      (runBatch sampleExecutors (dueVisits sampleFault 10 50 sampleDue) sampleDue).length = 1 ∧
      ¬ Isolated sampleExecutors (dueVisits sampleFault 10 50 sampleDue) sampleDue := by
  have hlen : (runBatch sampleExecutors (dueVisits sampleFault 10 50 sampleDue) sampleDue).length =
      1 := by decide +kernel
  refine ⟨by decide +kernel, hlen, ?_⟩
  intro hiso
  have hsecond : ∃ p, (dueVisits sampleFault 10 50 sampleDue)[1]? = some p := by
    have hsome : (dueVisits sampleFault 10 50 sampleDue)[1]?.isSome = true := by decide +kernel
    exact Option.isSome_iff_exists.mp hsome
  obtain ⟨⟨row, v⟩, hp⟩ := hsecond
  obtain ⟨⟨dbk, hk, -⟩, -⟩ := hiso 1 row v hp
  obtain ⟨hlt, -⟩ := List.getElem?_eq_some_iff.mp hk
  omega

end LnPay
