/-
# The effect queue survives crashes

A row of the queue is never deleted, its status leaves `pending` once, and it
leaves it for `done` exactly in the transaction that applies `onDone`.

`QueueInv` is the invariant over all runs: what the worker holds in memory is
pending, `applied` is what is done, and a dedup key is pending once.
-/
import LnPay.EffectQueue

namespace LnPay

variable {T R : Type} {kinds : String → Bool} {db db' db₁ : QueueDb T} {now : ℤ} {id : ℕ}

/-! ## Rows along the steps of a transaction -/

/-- The same effect, put forward at most. -/
structure EffectRow.Kept (r r' : EffectRow) : Prop where
  kind : r'.kind = r.kind
  dedup : r'.dedup = r.dedup
  payload : r'.payload = r.payload
  status : r'.status = r.status
  attempts : r'.attempts = r.attempts

theorem EffectRow.Kept.refl (r : EffectRow) : r.Kept r := ⟨rfl, rfl, rfl, rfl, rfl⟩

theorem EffectRow.Kept.trans {r r' r'' : EffectRow} (h : r.Kept r') (h' : r'.Kept r'') :
    r.Kept r'' :=
  ⟨h'.kind.trans h.kind, h'.dedup.trans h.dedup, h'.payload.trans h.payload,
    h'.status.trans h.status, h'.attempts.trans h.attempts⟩

/-- What `enqueue` does when it does not throw. -/
theorem enqueueEffect_spec {kind payload : String} {dedup : Option String} {delayMs : ℤ}
    {stacked : Bool} (h : enqueueEffect kinds now kind payload dedup delayMs db = .ok (stacked, db')) :
    db' = db ∨ ∃ effects, db' = { db with effects := effects } ∧
      (dedup ≠ none → ∀ r ∈ db.effects.rows, r.status = .pending → r.dedup ≠ dedup) ∧
      db.effects.insert (newEffect (nextEffectId db.effects) now kind payload dedup delayMs) =
        some effects := by
  unfold enqueueEffect at h
  split at h
  · cases h
  · split at h
    · cases h
      exact .inl rfl
    · rename_i hfree
      split at h
      · cases h
        exact .inl rfl
      · rename_i effects hins
        cases h
        refine .inr ⟨effects, rfl, ?_, hins⟩
        intro hd r hr hs he
        exact hfree ⟨hd, r, hr, hs, he⟩

/-- A step of a transaction keeps every effect. -/
theorem QueueStep.find_kept (h : QueueStep kinds now db db') {r : EffectRow}
    (hr : db.effects.find id = some r) : ∃ r', db'.effects.find id = some r' ∧ r.Kept r' := by
  cases h with
  | write => exact ⟨r, hr, .refl r⟩
  | enqueue _ _ _ _ _ _ h =>
    rcases enqueueEffect_spec h with rfl | ⟨effects, rfl, -, hins⟩
    · exact ⟨r, hr, .refl r⟩
    · refine ⟨r, ?_, .refl r⟩
      show effects.find id = some r
      rw [KeyedTable.find_insert hins, if_neg, hr]
      intro he
      have hfree := KeyedTable.find_of_insert hins
      rw [he, hr] at hfree
      cases hfree
  | expedite dedup =>
    refine ⟨if r.dedup = some dedup ∧ r.status = .pending then { r with nextAt := now } else r, ?_, ?_⟩
    · rw [find_expediteEffect, hr, Option.map_some]
    · split <;> exact ⟨rfl, rfl, rfl, rfl, rfl⟩

/-- An effect after a step of a transaction was there before, or is new. -/
theorem QueueStep.find_cases (h : QueueStep kinds now db db') {r' : EffectRow}
    (hr' : db'.effects.find id = some r') :
    (∃ r, db.effects.find id = some r ∧ r.Kept r') ∨
      (db.effects.find id = none ∧ r'.status = .pending) := by
  cases hf : db.effects.find id with
  | some r =>
    obtain ⟨s, hs, hk⟩ := h.find_kept hf
    obtain rfl := Option.some.inj (hr'.symm.trans hs)
    exact .inl ⟨r, rfl, hk⟩
  | none =>
    refine .inr ⟨rfl, ?_⟩
    cases h with
    | write =>
      rw [show db.effects.find id = some r' from hr'] at hf
      cases hf
    | enqueue _ _ _ _ _ _ h =>
      rcases enqueueEffect_spec h with rfl | ⟨effects, rfl, -, hins⟩
      · rw [hr'] at hf
        cases hf
      · have hr' : effects.find id = some r' := hr'
        rw [KeyedTable.find_insert hins] at hr'
        split at hr'
        · exact (Option.some.inj hr') ▸ rfl
        · rw [hf] at hr'
          cases hr'
    | expedite dedup =>
      rw [find_expediteEffect, hf] at hr'
      cases hr'

theorem find_kept_of_steps (h : Relation.ReflTransGen (QueueStep kinds now) db db') {r : EffectRow}
    (hr : db.effects.find id = some r) : ∃ r', db'.effects.find id = some r' ∧ r.Kept r' := by
  induction h with
  | refl => exact ⟨r, hr, .refl r⟩
  | tail _ hstep ih =>
    obtain ⟨s, hs, hk⟩ := ih
    obtain ⟨r', hr', hk'⟩ := hstep.find_kept hs
    exact ⟨r', hr', hk.trans hk'⟩

theorem find_cases_of_steps (h : Relation.ReflTransGen (QueueStep kinds now) db db')
    {r' : EffectRow} (hr' : db'.effects.find id = some r') :
    (∃ r, db.effects.find id = some r ∧ r.Kept r') ∨
      (db.effects.find id = none ∧ r'.status = .pending) := by
  induction h generalizing r' with
  | refl => exact .inl ⟨r', hr', .refl r'⟩
  | tail _ hstep ih =>
    rcases hstep.find_cases hr' with ⟨s, hs, hk⟩ | ⟨hn, hp⟩
    · rcases ih hs with ⟨r, hr, hk'⟩ | ⟨hn, hp⟩
      · exact .inl ⟨r, hr, hk'.trans hk⟩
      · exact .inr ⟨hn, hk.status.trans hp⟩
    · refine .inr ⟨?_, hp⟩
      by_contra hne
      obtain ⟨r, hr⟩ := Option.ne_none_iff_exists'.mp hne
      obtain ⟨s, hs, -⟩ := find_kept_of_steps ‹_› hr
      rw [hs] at hn
      cases hn

/-! ## One pending effect for a dedup key -/

/-- The unique index of the pending effects. -/
def DedupOnce (db : QueueDb T) : Prop :=
  ∀ r ∈ db.effects.rows, ∀ s ∈ db.effects.rows, r.status = .pending → s.status = .pending →
    r.dedup ≠ none → r.dedup = s.dedup → r = s

theorem QueueStep.dedupOnce (h : QueueStep kinds now db db') (hd : DedupOnce db) :
    DedupOnce db' := by
  cases h with
  | write => exact hd
  | enqueue _ _ _ _ _ _ h =>
    rcases enqueueEffect_spec h with rfl | ⟨effects, rfl, hfree, hins⟩
    · exact hd
    · intro r hr s hs hpr hps hne heq
      have hrows : effects.rows = db.effects.rows ++ [_] := KeyedTable.rows_of_insert hins
      have hr : r ∈ effects.rows := hr
      have hs : s ∈ effects.rows := hs
      rw [hrows, List.mem_append, List.mem_singleton] at hr hs
      rcases hr with hr | rfl
      · rcases hs with hs | rfl
        · exact hd r hr s hs hpr hps hne heq
        · exact absurd heq (hfree (fun hn => hne (heq.trans hn)) r hr hpr)
      · rcases hs with hs | rfl
        · exact absurd heq.symm (hfree hne s hs hps)
        · rfl
  | expedite dedup =>
    intro r hr s hs hpr hps hne heq
    have hr : r ∈ db.effects.rows.map _ := hr
    have hs : s ∈ db.effects.rows.map _ := hs
    obtain ⟨r₀, hr₀, rfl⟩ := List.mem_map.mp hr
    obtain ⟨s₀, hs₀, rfl⟩ := List.mem_map.mp hs
    -- putting an effect forward changes neither its key nor its status
    have hsame : ∀ q : EffectRow,
        (if q.dedup = some dedup ∧ q.status = .pending then { q with nextAt := now } else q).dedup =
            q.dedup ∧
          (if q.dedup = some dedup ∧ q.status = .pending then { q with nextAt := now }
            else q).status = q.status := by
      intro q
      split <;> exact ⟨rfl, rfl⟩
    rw [(hsame r₀).2] at hpr
    rw [(hsame s₀).2] at hps
    rw [(hsame r₀).1] at hne heq
    rw [(hsame s₀).1] at heq
    rw [hd r₀ hr₀ s₀ hs₀ hpr hps hne heq]

/-- A write to one row that makes nothing pending keeps the keys apart. -/
theorem DedupOnce.update (hd : DedupOnce db) (k : ℕ) (f : EffectRow → EffectRow)
    (hf : ∀ r, (f r).id = r.id) (hdedup : ∀ r, (f r).dedup = r.dedup)
    (hstatus : ∀ r, (f r).status = .pending → r.status = .pending) :
    DedupOnce { db with effects := db.effects.update k f hf } := by
  intro r hr s hs hpr hps hne heq
  have hr : r ∈ db.effects.rows.map _ := hr
  have hs : s ∈ db.effects.rows.map _ := hs
  obtain ⟨r₀, hr₀, rfl⟩ := List.mem_map.mp hr
  obtain ⟨s₀, hs₀, rfl⟩ := List.mem_map.mp hs
  have hsame : ∀ q : EffectRow, (if q.id = k then f q else q).dedup = q.dedup ∧
      ((if q.id = k then f q else q).status = .pending → q.status = .pending) := by
    intro q
    split
    · exact ⟨hdedup q, hstatus q⟩
    · exact ⟨rfl, fun h => h⟩
  rw [(hsame r₀).1] at hne heq
  rw [(hsame s₀).1] at heq
  rw [hd r₀ hr₀ s₀ hs₀ ((hsame r₀).2 hpr) ((hsame s₀).2 hps) hne heq]

/-! ## What a recording does -/

section Recording

variable {ex : EffectExecutor kinds T R} {row : EffectRow} {outcome : EffectOutcome R}
  {error : String} {delayMs : Option ℤ}

/-- The two ways to write down that an effect did not succeed. -/
inductive Refused (row : EffectRow) (now : ℤ) (db : QueueDb T) : QueueDb T → Prop
  | dead (attempts : ℕ) (error : String) : Refused row now db (markDead row attempts error now db)
  | putOff (error : String) (delayMs : Option ℤ) :
      Refused row now db (putOffEffect row error delayMs now db)

theorem Refused.find_of_ne (h : Refused row now db db₁) (hne : id ≠ row.id) :
    db₁.effects.find id = db.effects.find id := by
  cases h with
  | dead => rw [find_markDead, if_neg hne]
  | putOff => rw [find_putOffEffect, if_neg hne]

/-- The effect itself is given up, or counts one more attempt. -/
theorem Refused.find_self (h : Refused row now db db₁) {r : EffectRow}
    (hr : db.effects.find row.id = some r) : ∃ r₁, db₁.effects.find row.id = some r₁ ∧
      r₁.kind = r.kind ∧ r₁.dedup = r.dedup ∧ r₁.payload = r.payload ∧
      (r₁.status = .dead ∨ (r₁.status = r.status ∧ r₁.attempts = row.attempts + 1)) := by
  cases h with
  | dead attempts error =>
    rw [find_markDead, if_pos rfl, hr]
    exact ⟨_, rfl, rfl, rfl, rfl, .inl rfl⟩
  | putOff error delayMs =>
    rw [find_putOffEffect, if_pos rfl, hr]
    exact ⟨_, rfl, rfl, rfl, rfl, .inr ⟨rfl, rfl⟩⟩

theorem DedupOnce.finish (hd : DedupOnce db) (k : ℕ) {status : EffectStatus} (error : Option String)
    (hs : status ≠ .pending) : DedupOnce (finishEffect k status error now db) :=
  hd.update k (·.finish status error now) (fun _ => rfl) (fun _ => rfl) fun _ h => absurd h hs

theorem Refused.dedupOnce (h : Refused row now db db₁) (hd : DedupOnce db) : DedupOnce db₁ := by
  cases h with
  | dead attempts error =>
    have hcounted := hd.update row.id (fun r => { r with attempts := attempts }) (fun _ => rfl)
      (fun _ => rfl) fun _ h => h
    exact hcounted.finish row.id (some error) (by decide)
  | putOff error delayMs =>
    exact hd.update row.id (·.putOff (row.attempts + 1)
      (now + delayMs.getD (backoffMs (row.attempts + 1))) error) (fun _ => rfl) (fun _ => rfl)
      fun _ h => h

theorem dedupOnce_of_steps (h : Relation.ReflTransGen (QueueStep kinds now) db db')
    (hd : DedupOnce db) : DedupOnce db' :=
  h.keeps (fun _ _ hstep => hstep.dedupOnce) hd

theorem retryEffect_cases (h : retryEffect ex row error delayMs now db = .ok db') :
    ∃ db₁, Refused row now db db₁ ∧ Relation.ReflTransGen (QueueStep kinds now) db₁ db' := by
  unfold retryEffect at h
  split at h
  · exact ⟨_, .dead _ _, (ex.onDead _ _).steps _ _ _ h⟩
  · exact ⟨_, .putOff _ _, (ex.onRetry _ _).steps _ _ _ h⟩

/-- How an outcome is recorded: `onDone` together with the mark, or not at all. -/
theorem recordOutcome_cases (h : recordOutcome ex row outcome now db = .ok db') :
    (∃ result, outcome = .done result ∧ (ex.onDone row.payload result).run now
        (finishEffect row.id .done none now db) = .ok db') ∨
      (∀ result, outcome = .done result → ∃ e, (ex.onDone row.payload result).run now
        (finishEffect row.id .done none now db) = .error e) ∧
      ∃ db₁, Refused row now db db₁ ∧ Relation.ReflTransGen (QueueStep kinds now) db₁ db' := by
  cases outcome with
  | done result =>
    cases hdone : (ex.onDone row.payload result).run now (finishEffect row.id .done none now db) with
    | ok db₁ =>
      simp only [recordOutcome, hdone] at h
      exact .inl ⟨result, rfl, by rw [hdone, h]⟩
    | error e =>
      simp only [recordOutcome, hdone] at h
      refine .inr ⟨?_, retryEffect_cases h⟩
      rintro _ ⟨⟩
      exact ⟨e, hdone⟩
  | retry error delayMs => exact .inr ⟨(fun _ h => by cases h), retryEffect_cases h⟩
  | dead error =>
    exact .inr ⟨(fun _ h => by cases h), _, .dead _ _, (ex.onDead _ _).steps _ _ _ h⟩
  | threw error => exact .inr ⟨(fun _ h => by cases h), retryEffect_cases h⟩

/-- What a recorded outcome leaves of the effects: the others are kept, this one is done with its
callback applied, is given up, or counts one more attempt. -/
theorem find_recordOutcome (h : recordOutcome ex row outcome now db = .ok db') {r : EffectRow}
    (hr : db.effects.find id = some r) : ∃ r', db'.effects.find id = some r' ∧
      r'.kind = r.kind ∧ r'.dedup = r.dedup ∧ r'.payload = r.payload ∧
      (id ≠ row.id → r.Kept r') ∧ (id = row.id → r'.status = .done ∨ r'.status = .dead ∨
        (r'.status = r.status ∧ r'.attempts = row.attempts + 1)) := by
  rcases recordOutcome_cases h with ⟨result, -, hdone⟩ | ⟨-, db₁, href, hsteps⟩
  · have hsteps := (ex.onDone row.payload result).steps _ _ _ hdone
    by_cases hid : id = row.id
    · have hr₁ : (finishEffect row.id .done none now db).effects.find id =
          some (r.finish .done none now) := by
        rw [find_finishEffect, if_pos hid, hr, Option.map_some]
      obtain ⟨r', hr', hk⟩ := find_kept_of_steps hsteps hr₁
      exact ⟨r', hr', hk.kind, hk.dedup, hk.payload, fun hne => absurd hid hne,
        fun _ => .inl hk.status⟩
    · have hr₁ : (finishEffect row.id .done none now db).effects.find id = some r := by
        rw [find_finishEffect, if_neg hid, hr]
      obtain ⟨r', hr', hk⟩ := find_kept_of_steps hsteps hr₁
      exact ⟨r', hr', hk.kind, hk.dedup, hk.payload, fun _ => hk, fun he => absurd he hid⟩
  · by_cases hid : id = row.id
    · subst hid
      obtain ⟨r₁, hr₁, hkind, hdedup, hpayload, hstatus⟩ := href.find_self hr
      obtain ⟨r', hr', hk⟩ := find_kept_of_steps hsteps hr₁
      refine ⟨r', hr', hk.kind.trans hkind, hk.dedup.trans hdedup, hk.payload.trans hpayload,
        fun hne => absurd rfl hne, fun _ => .inr ?_⟩
      rw [hk.status, hk.attempts]
      exact hstatus
    · rw [← href.find_of_ne hid] at hr
      obtain ⟨r', hr', hk⟩ := find_kept_of_steps hsteps hr
      exact ⟨r', hr', hk.kind, hk.dedup, hk.payload, fun _ => hk, fun he => absurd he hid⟩

/-- An effect that is there after a recording but was not before is pending. -/
theorem new_of_recordOutcome (h : recordOutcome ex row outcome now db = .ok db') {r' : EffectRow}
    (hn : db.effects.find id = none) (hr' : db'.effects.find id = some r') :
    r'.status = .pending := by
  have hmark : ∀ db₁ : QueueDb T, db₁.effects.find id = none →
      Relation.ReflTransGen (QueueStep kinds now) db₁ db' → r'.status = .pending := by
    intro db₁ hn₁ hsteps
    rcases find_cases_of_steps hsteps hr' with ⟨r, hr, -⟩ | ⟨-, hp⟩
    · rw [hn₁] at hr
      cases hr
    · exact hp
  rcases recordOutcome_cases h with ⟨result, -, hdone⟩ | ⟨-, db₁, href, hsteps⟩
  · refine hmark _ ?_ ((ex.onDone row.payload result).steps _ _ _ hdone)
    rw [find_finishEffect, hn]
    split <;> rfl
  · refine hmark db₁ ?_ hsteps
    cases href with
    | dead =>
      rw [find_markDead, hn]
      split <;> rfl
    | putOff =>
      rw [find_putOffEffect, hn]
      split <;> rfl

end Recording

/-! ## The invariant -/

/-- What holds in every state of the worker. -/
structure QueueInv (w : QueueWorld T) : Prop where
  /-- the effects of the batch are distinct and pending -/
  nodup : ∀ batch, w.batch = some batch → (batch.map EffectRow.id).Nodup
  pending : ∀ batch, w.batch = some batch → ∀ row ∈ batch,
    ∃ r, w.db.effects.find row.id = some r ∧ r.status = .pending ∧ r.payload = row.payload
  /-- `onDone` has been applied once, to what is done -/
  once : w.applied.Nodup
  applied : ∀ id, id ∈ w.applied ↔ ∃ r, w.db.effects.find id = some r ∧ r.status = .done
  dedup : DedupOnce w.db

section Steps

variable {executors : String → EffectExecutor kinds T R} {w w' : QueueWorld T}
  {i : QueueInput kinds T R}

/-- A change that keeps every effect and makes none done keeps what is known. -/
theorem QueueInv.kept (h : QueueInv w)
    (hkept : ∀ id r, w.db.effects.find id = some r →
      ∃ r', db'.effects.find id = some r' ∧ r.Kept r')
    (hnew : ∀ id r', w.db.effects.find id = none → db'.effects.find id = some r' →
      r'.status = .pending) (hd : DedupOnce db') : QueueInv { w with db := db' } where
  nodup := h.nodup
  pending batch hb row hrow := by
    obtain ⟨r, hr, hp, hpay⟩ := h.pending batch hb row hrow
    obtain ⟨r', hr', hk⟩ := hkept _ r hr
    exact ⟨r', hr', hk.status.trans hp, hk.payload.trans hpay⟩
  once := h.once
  applied id := by
    rw [h.applied]
    constructor
    · rintro ⟨r, hr, hs⟩
      obtain ⟨r', hr', hk⟩ := hkept id r hr
      exact ⟨r', hr', hk.status.trans hs⟩
    · rintro ⟨r', hr', hs⟩
      cases hf : w.db.effects.find id with
      | none =>
        have hp := hnew id r' hf hr'
        rw [hs] at hp
        cases hp
      | some r =>
        obtain ⟨s, hs', hk⟩ := hkept id r hf
        obtain rfl := Option.some.inj (hr'.symm.trans hs')
        exact ⟨r, rfl, hk.status.symm.trans hs⟩
  dedup := hd

/-- A transaction of somebody else keeps the invariant. -/
theorem QueueInv.commit (h : QueueInv w) (body : TxBody kinds T) :
    QueueInv { w with db := body.commit w.now w.db } := by
  unfold TxBody.commit
  split
  · rename_i db hrun
    have hsteps := body.steps _ _ _ hrun
    refine h.kept (fun id r hr => find_kept_of_steps hsteps hr) (fun id r' hn hr' => ?_)
      (dedupOnce_of_steps hsteps h.dedup)
    rcases find_cases_of_steps hsteps hr' with ⟨r, hr, -⟩ | ⟨-, hp⟩
    · rw [hn] at hr
      cases hr
    · exact hp
  · exact h

/-- What the worker has fetched is due. -/
theorem mem_dueEffects {limit : ℕ} {row : EffectRow} (h : row ∈ dueEffects now limit db) :
    db.effects.find row.id = some row ∧ row.status = .pending ∧ row.nextAt ≤ now := by
  have hmem := (List.mem_insertionSort _).mp (List.mem_of_mem_take h)
  obtain ⟨hrow, hdue⟩ := List.mem_filter.mp hmem
  have hdue : row.status = .pending ∧ row.nextAt ≤ now := by simpa using hdue
  exact ⟨KeyedTable.find_key_of_mem hrow, hdue⟩

theorem nodup_dueEffects (now : ℤ) (limit : ℕ) (db : QueueDb T) :
    ((dueEffects now limit db).map EffectRow.id).Nodup := by
  refine List.Nodup.sublist ((List.take_sublist _ _).map _) ?_
  refine ((List.perm_insertionSort _ _).map EffectRow.id).nodup_iff.mpr ?_
  exact db.effects.nodup.sublist (List.filter_sublist.map _)

/-- A turn of the worker that records an outcome. -/
structure Recorded (executors : String → EffectExecutor kinds T R) (w w' : QueueWorld T)
    (row : EffectRow) (rest : List EffectRow) (outcome : EffectOutcome R) : Prop where
  run : recordOutcome (executors row.kind) row outcome w.now w.db = .ok w'.db
  batch : w'.batch = some rest
  executed : w'.executed = w.executed
  applied : (∃ result, outcome = .done result ∧
      ((executors row.kind).onDone row.payload result).run w.now
        (finishEffect row.id .done none w.now w.db) = .ok w'.db ∧
      w'.applied = w.applied ++ [row.id]) ∨
    ((∀ result, outcome = .done result → ∃ e,
        ((executors row.kind).onDone row.payload result).run w.now
          (finishEffect row.id .done none w.now w.db) = .error e) ∧
      w'.applied = w.applied)

/-- The worker takes up an answer: it records it, or a callback throws and ends the run. -/
theorem step_answer {outcome : EffectOutcome R}
    (hs : QueueWorld.step executors w (.answer outcome) = some w') :
    ∃ row rest, w.batch = some (row :: rest) ∧ w.executing = true ∧
      (((∃ e, recordOutcome (executors row.kind) row outcome w.now w.db = .error e) ∧
          w' = { w with batch := none, executing := false }) ∨
        Recorded executors w w' row rest outcome) := by
  simp only [QueueWorld.step] at hs
  split at hs
  · rename_i row rest hb hex
    refine ⟨row, rest, hb, hex, ?_⟩
    split at hs
    · rename_i e he
      exact .inl ⟨⟨e, he⟩, (Option.some.inj hs).symm⟩
    · rename_i db hdb
      obtain rfl := Option.some.inj hs
      refine .inr ⟨hdb, rfl, rfl, ?_⟩
      rcases recordOutcome_cases hdb with ⟨result, rfl, hdone⟩ | ⟨hfail, -⟩
      · exact .inl ⟨result, rfl, hdone, by simp only [hdone]⟩
      · refine .inr ⟨hfail, ?_⟩
        cases outcome with
        | done result =>
          obtain ⟨e, he⟩ := hfail result rfl
          simp only [he]
        | _ => rfl
  · cases hs

/-- **A recorded outcome keeps the invariant.** -/
theorem QueueInv.recorded {row : EffectRow} {rest : List EffectRow} {outcome : EffectOutcome R}
    (h : QueueInv w) (hb : w.batch = some (row :: rest))
    (hrec : Recorded executors w w' row rest outcome) : QueueInv w' := by
  obtain ⟨hrun, hbatch, -, happlied⟩ := hrec
  have hnd : row.id ∉ rest.map EffectRow.id ∧ (rest.map EffectRow.id).Nodup :=
    List.nodup_cons.mp (h.nodup _ hb)
  obtain ⟨r, hr, hpend, -⟩ := h.pending _ hb row List.mem_cons_self
  have hfree : row.id ∉ w.applied := by
    intro hmem
    obtain ⟨s, hs, hdone⟩ := (h.applied row.id).mp hmem
    obtain rfl := Option.some.inj (hr.symm.trans hs)
    rw [hpend] at hdone
    cases hdone
  -- which effects are done after the recording
  have hother : ∀ id, id ≠ row.id → ((∃ r', w'.db.effects.find id = some r' ∧ r'.status = .done) ↔
      ∃ r, w.db.effects.find id = some r ∧ r.status = .done) := by
    intro id hne
    constructor
    · rintro ⟨r', hr', hs⟩
      cases hf : w.db.effects.find id with
      | none =>
        have hp := new_of_recordOutcome hrun hf hr'
        rw [hs] at hp
        cases hp
      | some q =>
        obtain ⟨q', hq', -, -, -, hk, -⟩ := find_recordOutcome hrun hf
        obtain rfl := Option.some.inj (hr'.symm.trans hq')
        exact ⟨q, rfl, (hk hne).status.symm.trans hs⟩
    · rintro ⟨q, hq, hs⟩
      obtain ⟨q', hq', -, -, -, hk, -⟩ := find_recordOutcome hrun hq
      exact ⟨q', hq', (hk hne).status.trans hs⟩
  constructor
  · intro batch hb'
    obtain rfl := Option.some.inj (hbatch.symm.trans hb')
    exact hnd.2
  · intro batch hb' row' hrow'
    obtain rfl := Option.some.inj (hbatch.symm.trans hb')
    have hne : row'.id ≠ row.id := fun he => hnd.1 (he ▸ List.mem_map_of_mem hrow')
    obtain ⟨q, hq, hp, hpay⟩ := h.pending _ hb row' (List.mem_cons_of_mem _ hrow')
    obtain ⟨q', hq', -, -, hpay', hk, -⟩ := find_recordOutcome hrun hq
    exact ⟨q', hq', (hk hne).status.trans hp, hpay'.trans hpay⟩
  · rcases happlied with ⟨-, -, -, happ⟩ | ⟨-, happ⟩
    · rw [happ]
      exact h.once.append (List.nodup_singleton _) fun id hid hmem =>
        hfree ((List.mem_singleton.mp hmem) ▸ hid)
    · rw [happ]
      exact h.once
  · intro id
    rcases happlied with ⟨result, -, hdone, happ⟩ | ⟨hfail, happ⟩
    · rw [happ, List.mem_append, List.mem_singleton]
      by_cases hid : id = row.id
      · subst hid
        have hr₁ : (finishEffect row.id .done none w.now w.db).effects.find row.id =
            some (r.finish .done none w.now) := by
          rw [find_finishEffect, if_pos rfl, hr, Option.map_some]
        obtain ⟨r', hr', hk⟩ :=
          find_kept_of_steps (((executors row.kind).onDone row.payload result).steps _ _ _ hdone) hr₁
        exact ⟨fun _ => ⟨r', hr', hk.status⟩, fun _ => .inr rfl⟩
      · rw [hother id hid, h.applied]
        exact ⟨fun hm => hm.resolve_right hid, .inl⟩
    · rw [happ]
      by_cases hid : id = row.id
      · subst hid
        refine ⟨fun hmem => absurd hmem hfree, ?_⟩
        rintro ⟨r', hr', hs⟩
        -- a refused effect is not done
        rcases recordOutcome_cases hrun with ⟨result, hout, hok⟩ | ⟨-, db₁, href, hsteps⟩
        · obtain ⟨e, he⟩ := hfail result hout
          rw [hok] at he
          cases he
        · obtain ⟨r₁, hr₁, -, -, -, hst⟩ := href.find_self hr
          obtain ⟨r₂, hr₂, hk⟩ := find_kept_of_steps hsteps hr₁
          obtain rfl := Option.some.inj (hr'.symm.trans hr₂)
          rw [hk.status] at hs
          rcases hst with hst | ⟨hst, -⟩
          · rw [hst] at hs
            cases hs
          · rw [hst, hpend] at hs
            cases hs
      · rw [hother id hid, h.applied]
  · rcases recordOutcome_cases hrun with ⟨result, -, hok⟩ | ⟨-, db₁, href, hsteps⟩
    · exact dedupOnce_of_steps (((executors row.kind).onDone row.payload result).steps _ _ _ hok)
        (h.dedup.finish row.id none (by decide))
    · exact dedupOnce_of_steps hsteps (href.dedupOnce h.dedup)

/-- An effect of an unknown kind is given up. -/
theorem QueueInv.unknown {row : EffectRow} {rest : List EffectRow} {error : String}
    (h : QueueInv w) (hb : w.batch = some (row :: rest)) :
    QueueInv { w with
      db := finishEffect row.id .dead (some error) w.now w.db, batch := some rest } := by
  have hnd : row.id ∉ rest.map EffectRow.id ∧ (rest.map EffectRow.id).Nodup :=
    List.nodup_cons.mp (h.nodup _ hb)
  obtain ⟨r, hr, hpend, -⟩ := h.pending _ hb row List.mem_cons_self
  constructor
  · rintro _ ⟨⟩
    exact hnd.2
  · rintro _ ⟨⟩ row' hrow'
    have hne : row'.id ≠ row.id := fun he => hnd.1 (he ▸ List.mem_map_of_mem hrow')
    obtain ⟨q, hq, hrest⟩ := h.pending _ hb row' (List.mem_cons_of_mem _ hrow')
    refine ⟨q, ?_, hrest⟩
    show (finishEffect _ _ _ _ _).effects.find _ = _
    rw [find_finishEffect, if_neg hne, hq]
  · exact h.once
  · intro id
    show id ∈ w.applied ↔ ∃ r', (finishEffect _ _ _ _ _).effects.find id = some r' ∧ _
    rw [h.applied, find_finishEffect]
    split
    · rename_i hid
      subst hid
      constructor
      · rintro ⟨q, hq, hs⟩
        obtain rfl := Option.some.inj (hr.symm.trans hq)
        rw [hpend] at hs
        cases hs
      · rintro ⟨q, hq, hs⟩
        rw [hr] at hq
        obtain rfl := Option.some.inj hq
        cases hs
    · rfl
  · exact h.dedup.finish row.id (some error) (by decide)

/-- **Every step keeps the invariant.** -/
theorem QueueInv.step (h : QueueInv w) (hs : QueueWorld.step executors w i = some w') :
    QueueInv w' := by
  cases i with
  | tick ms =>
    obtain rfl := Option.some.inj hs
    exact ⟨h.nodup, h.pending, h.once, h.applied, h.dedup⟩
  | transact body =>
    obtain rfl := Option.some.inj hs
    exact h.commit body
  | runDue limit =>
    simp only [QueueWorld.step] at hs
    split at hs
    · cases hs
    · obtain rfl := Option.some.inj hs
      refine ⟨?_, ?_, h.once, h.applied, h.dedup⟩
      · rintro _ ⟨⟩
        exact nodup_dueEffects _ _ _
      · rintro _ ⟨⟩ row hrow
        obtain ⟨hr, hp, -⟩ := mem_dueEffects hrow
        exact ⟨row, hr, hp, rfl⟩
  | execute =>
    simp only [QueueWorld.step] at hs
    split at hs
    · obtain rfl := Option.some.inj hs
      exact ⟨(fun _ hb => by cases hb), (fun _ hb => by cases hb), h.once, h.applied, h.dedup⟩
    · rename_i row rest hb _
      split at hs
      · obtain rfl := Option.some.inj hs
        exact ⟨h.nodup, h.pending, h.once, h.applied, h.dedup⟩
      · obtain rfl := Option.some.inj hs
        exact h.unknown hb
    · cases hs
  | answer outcome =>
    obtain ⟨row, rest, hb, -, ⟨-, rfl⟩ | hrec⟩ := step_answer hs
    · exact ⟨(fun _ hb => by cases hb), (fun _ hb => by cases hb), h.once, h.applied, h.dedup⟩
    · exact h.recorded hb hrec
  | crash =>
    obtain rfl := Option.some.inj hs
    exact ⟨(fun _ hb => by cases hb), (fun _ hb => by cases hb), h.once, h.applied, h.dedup⟩

theorem queueInv_of_reachable (hw : (queueSystem executors).Reachable w) : QueueInv w := by
  refine TransitionSystem.invariant (P := QueueInv) ?_ ?_ hw
  · rintro _ ⟨rest, now, rfl⟩
    refine ⟨(fun _ hb => by cases hb), (fun _ hb => by cases hb), List.nodup_nil, fun id => ?_, ?_⟩
    · constructor
      · intro hmem
        cases hmem
      · rintro ⟨r, hr, -⟩
        cases hr
    · intro r hr
      cases hr
  · intro a i b _ ha hs
    exact ha.step hs

/-! ## Effects over whole runs -/

/-- The same effect in a later state; once it is done or dead it stays so. -/
structure EffectRow.Lasts (r r' : EffectRow) : Prop where
  kind : r'.kind = r.kind
  dedup : r'.dedup = r.dedup
  payload : r'.payload = r.payload
  status : r.status ≠ .pending → r'.status = r.status

theorem EffectRow.Kept.lasts {r r' : EffectRow} (h : r.Kept r') : r.Lasts r' :=
  ⟨h.kind, h.dedup, h.payload, fun _ => h.status⟩

/-- No step removes an effect or takes it back from its end. -/
theorem QueueInv.find_lasts (h : QueueInv w) (hs : QueueWorld.step executors w i = some w')
    {r : EffectRow} (hr : w.db.effects.find id = some r) :
    ∃ r', w'.db.effects.find id = some r' ∧ r.Lasts r' := by
  have hsame : w'.db = w.db → ∃ r', w'.db.effects.find id = some r' ∧ r.Lasts r' := by
    intro hdb
    rw [hdb]
    exact ⟨r, hr, (EffectRow.Kept.refl r).lasts⟩
  cases i with
  | tick ms =>
    obtain rfl := Option.some.inj hs
    exact hsame rfl
  | transact body =>
    obtain rfl := Option.some.inj hs
    show ∃ r', (body.commit w.now w.db).effects.find id = some r' ∧ _
    unfold TxBody.commit
    split
    · rename_i db hrun
      obtain ⟨r', hr', hk⟩ := find_kept_of_steps (body.steps _ _ _ hrun) hr
      exact ⟨r', hr', hk.lasts⟩
    · exact ⟨r, hr, (EffectRow.Kept.refl r).lasts⟩
  | runDue limit =>
    simp only [QueueWorld.step] at hs
    split at hs
    · cases hs
    · obtain rfl := Option.some.inj hs
      exact hsame rfl
  | execute =>
    simp only [QueueWorld.step] at hs
    split at hs
    · obtain rfl := Option.some.inj hs
      exact hsame rfl
    · rename_i row rest hb _
      split at hs
      · obtain rfl := Option.some.inj hs
        exact hsame rfl
      · obtain rfl := Option.some.inj hs
        show ∃ r', (finishEffect _ _ _ _ _).effects.find id = some r' ∧ _
        rw [find_finishEffect]
        split
        · rename_i hid
          subst hid
          obtain ⟨q, hq, hp, -⟩ := h.pending _ hb row List.mem_cons_self
          obtain rfl := Option.some.inj (hr.symm.trans hq)
          rw [hr]
          exact ⟨_, rfl, rfl, rfl, rfl, fun hne => absurd hp hne⟩
        · exact ⟨r, hr, (EffectRow.Kept.refl r).lasts⟩
    · cases hs
  | answer outcome =>
    obtain ⟨row, rest, hb, -, ⟨-, rfl⟩ | hrec⟩ := step_answer hs
    · exact hsame rfl
    · obtain ⟨r', hr', hkind, hdedup, hpay, hk, -⟩ := find_recordOutcome hrec.run hr
      refine ⟨r', hr', hkind, hdedup, hpay, fun hne => (hk ?_).status⟩
      rintro rfl
      obtain ⟨q, hq, hp, -⟩ := h.pending _ hb row List.mem_cons_self
      obtain rfl := Option.some.inj (hr.symm.trans hq)
      exact hne hp
  | crash =>
    obtain rfl := Option.some.inj hs
    exact hsame rfl

/-- No run removes an effect or takes it back from its end. -/
theorem find_lasts_of_run {is : List (QueueInput kinds T R)}
    (hw : (queueSystem executors).Reachable w) (hrun : (queueSystem executors).run w is = some w')
    {r : EffectRow} (hr : w.db.effects.find id = some r) :
    ∃ r', w'.db.effects.find id = some r' ∧ r.Lasts r' := by
  induction is generalizing w r with
  | nil =>
    obtain rfl := Option.some.inj hrun
    exact ⟨r, hr, (EffectRow.Kept.refl r).lasts⟩
  | cons i is ih =>
    rw [TransitionSystem.run, Option.bind_eq_some_iff] at hrun
    obtain ⟨u, hu, hrun⟩ := hrun
    obtain ⟨r₁, hr₁, h₁⟩ := (queueInv_of_reachable hw).find_lasts hu hr
    obtain ⟨r', hr', h'⟩ := ih (hw.next hu) hrun hr₁
    refine ⟨r', hr', h'.kind.trans h₁.kind, h'.dedup.trans h₁.dedup, h'.payload.trans h₁.payload,
      fun hne => ?_⟩
    have hs := h₁.status hne
    rw [h'.status (by rwa [hs]), hs]

/-- The executor runs that a step begins are of pending effects. -/
theorem QueueInv.executed (h : QueueInv w) (hs : QueueWorld.step executors w i = some w') :
    w'.executed = w.executed ∨ ∃ id r, w'.executed = w.executed ++ [id] ∧
      w.db.effects.find id = some r ∧ r.status = .pending := by
  cases i with
  | execute =>
    simp only [QueueWorld.step] at hs
    split at hs
    · obtain rfl := Option.some.inj hs
      exact .inl rfl
    · rename_i row rest hb _
      split at hs
      · obtain rfl := Option.some.inj hs
        obtain ⟨r, hr, hp, -⟩ := h.pending _ hb row List.mem_cons_self
        exact .inr ⟨row.id, r, rfl, hr, hp⟩
      · obtain rfl := Option.some.inj hs
        exact .inl rfl
    · cases hs
  | answer outcome =>
    obtain ⟨row, rest, -, -, ⟨-, rfl⟩ | hrec⟩ := step_answer hs
    · exact .inl rfl
    · exact .inl hrec.executed
  | runDue limit =>
    simp only [QueueWorld.step] at hs
    split at hs
    · cases hs
    · obtain rfl := Option.some.inj hs
      exact .inl rfl
  | tick ms => exact .inl (by rw [← Option.some.inj hs])
  | transact body => exact .inl (by rw [← Option.some.inj hs])
  | crash => exact .inl (by rw [← Option.some.inj hs])

/-- **Crash safety of the queue.**  In every run, with crashes at any point: an effect that was
stacked is there for good and leaves `pending` for its end only; `onDone` has been applied to
exactly the effects that are done, once each, in the transaction that marks them so, and nothing of
one that throws stays; no effect is carried out after its end; and a dedup key is pending once. -/
theorem effects_survive_crashes (hw : (queueSystem executors).Reachable w) :
    (∀ is w' id r, (queueSystem executors).run w is = some w' → w.db.effects.find id = some r →
      ∃ r', w'.db.effects.find id = some r' ∧ r.Lasts r') ∧
    (w.applied.Nodup ∧
      (∀ id, id ∈ w.applied ↔ ∃ r, w.db.effects.find id = some r ∧ r.status = .done) ∧
      ∀ i w', QueueWorld.step executors w i = some w' → w'.applied = w.applied ∨
        ∃ row rest result, i = .answer (.done result) ∧ w.batch = some (row :: rest) ∧
          w'.applied = w.applied ++ [row.id] ∧
          ((executors row.kind).onDone row.payload result).run w.now
            (finishEffect row.id .done none w.now w.db) = .ok w'.db) ∧
    (∀ w' row rest result e, w.batch = some (row :: rest) →
      ((executors row.kind).onDone row.payload result).run w.now
        (finishEffect row.id .done none w.now w.db) = .error e →
      QueueWorld.step executors w (.answer (.done result)) = some w' →
      w'.applied = w.applied ∧ (w'.db = w.db ∨
        retryEffect (executors row.kind) row ("onDone 실패: " ++ e) none w.now w.db = .ok w'.db)) ∧
    (∀ i w', QueueWorld.step executors w i = some w' → w'.executed = w.executed ∨
      ∃ id r, w'.executed = w.executed ++ [id] ∧ w.db.effects.find id = some r ∧
        r.status = .pending) ∧
    DedupOnce w.db := by
  have h := queueInv_of_reachable hw
  refine ⟨fun is w' id r hrun hr => find_lasts_of_run hw hrun hr, ⟨h.once, h.applied, ?_⟩, ?_,
    fun i w' hs => h.executed hs, h.dedup⟩
  · intro i w' hs
    cases i with
    | answer outcome =>
      obtain ⟨row, rest, hb, -, ⟨-, rfl⟩ | hrec⟩ := step_answer hs
      · exact .inl rfl
      · rcases hrec.applied with ⟨result, rfl, hok, happ⟩ | ⟨-, happ⟩
        · exact .inr ⟨row, rest, result, rfl, hb, happ, hok⟩
        · exact .inl happ
    | execute =>
      simp only [QueueWorld.step] at hs
      split at hs
      · exact .inl (by rw [← Option.some.inj hs])
      · split at hs <;> exact .inl (by rw [← Option.some.inj hs])
      · cases hs
    | runDue limit =>
      simp only [QueueWorld.step] at hs
      split at hs
      · cases hs
      · exact .inl (by rw [← Option.some.inj hs])
    | tick ms => exact .inl (by rw [← Option.some.inj hs])
    | transact body => exact .inl (by rw [← Option.some.inj hs])
    | crash => exact .inl (by rw [← Option.some.inj hs])
  · intro w' row rest result e hb he hs
    obtain ⟨row', rest', hb', -, ⟨-, rfl⟩ | hrec⟩ := step_answer hs
    · exact ⟨rfl, .inl rfl⟩
    · obtain ⟨rfl, rfl⟩ := List.cons.inj (Option.some.inj (hb.symm.trans hb'))
      have hrun := hrec.run
      simp only [recordOutcome, he] at hrun
      rcases hrec.applied with ⟨_, ⟨⟩, hok, -⟩ | ⟨-, happ⟩
      · rw [he] at hok
        cases hok
      · exact ⟨happ, .inr hrun⟩

end Steps

/-! ## A queue

One kind of effect, whose `onDone` counts. -/

/-- A body that stacks one effect. -/
def TxBody.enqueue {kinds : String → Bool} (kind payload : String) (dedup : Option String)
    (delayMs : ℤ) : TxBody kinds T where
  run now db := (enqueueEffect kinds now kind payload dedup delayMs db).map Prod.snd
  steps := by
    intro now db db' h
    obtain ⟨⟨stacked, db₁⟩, hrun, rfl⟩ := Except.map_eq_ok_iff.mp h
    exact .single (.enqueue _ _ kind payload dedup delayMs stacked hrun)

/-- A body that writes the other data. -/
def TxBody.write {kinds : String → Bool} (f : T → T) : TxBody kinds T where
  run _ db := .ok { db with rest := f db.rest }
  steps := by
    intro now db db' h
    rw [← Except.ok.inj h]
    exact .single (.write db (f db.rest))

/-- A body that throws. -/
def TxBody.throw {kinds : String → Bool} (error : String) : TxBody kinds T where
  run _ _ := .error error
  steps := fun _ _ _ h => nomatch h

/-- The kinds of the sample. -/
def sampleKinds (kind : String) : Bool := kind = "publish" || kind = "pay"

/-- Its executors: a publication counts, the `onRetry` of a payment throws. -/
def sampleExecutors (kind : String) : EffectExecutor sampleKinds ℕ Unit where
  onDone _ _ := .write (· + 1)
  onDead _ _ := .skip _ _
  onRetry _ _ := if kind = "pay" then .throw "onRetry" else .skip _ _
  maxAttempts := none

/-- An effect is stacked, carried out, lost in a crash, and carried out again. -/
def sampleCrash : List (QueueInput sampleKinds ℕ Unit) :=
  [.transact (.enqueue "publish" "{}" (some "order:1") 0), .runDue 50, .execute, .crash,
    .runDue 50, .execute, .answer (.done ()), .execute]

theorem effects_survive_crashes_sample : ∃ w,
    (queueSystem sampleExecutors).run ⟨⟨.empty, 0⟩, 0, none, false, [], []⟩ sampleCrash = some w ∧
      w.executed = [1, 1] ∧ w.applied = [1] ∧ w.db.rest = 1 ∧ DedupOnce w.db := by
  have hrun : ((queueSystem sampleExecutors).run ⟨⟨.empty, 0⟩, 0, none, false, [], []⟩
      sampleCrash).map (fun w => (w.executed, w.applied, w.db.rest)) = some ([1, 1], [1], 1) := by
    decide +kernel
  obtain ⟨w, hw, hfacts⟩ := Option.map_eq_some_iff.mp hrun
  have hreach : (queueSystem sampleExecutors).Reachable w :=
    TransitionSystem.Reachable.run (.init ⟨0, 0, rfl⟩) hw
  have hall := effects_survive_crashes hreach
  simp only [Prod.mk.injEq] at hfacts
  exact ⟨w, hw, hfacts.1, hfacts.2.1, hfacts.2.2, hall.2.2.2.2⟩

end LnPay
