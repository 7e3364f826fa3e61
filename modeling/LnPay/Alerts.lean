/-
# Alerts and stuck effects (`daemon/src/admin/alerts.ts`, `stuck.ts`, `notify.ts`, `state.ts`)

An alert is recorded once for its key, together with the messages that take it
to the operators; each turn of the daemon goes over the effects that keep
failing and raises one alert for each.

* `raiseStuckEffects` is what the turn does,
* a `Bystander` is any other code in a transaction: it raises alerts under
  other keys, acknowledges some, and stacks effects,
* `alertSystem` lets them interleave with the effect worker and with crashes.

The reading of a payload and the invoice table are parameters.
-/
import LnPay.EffectQueueLaws
import LnPay.HoldPlans
import LnPay.Routing

namespace LnPay

/-! ## Rows -/

/-- The level of an alert. -/
inductive AlertLevel
  | warn | anomaly
  deriving DecidableEq, Repr

/-- `AlertInput`. -/
structure AlertInput where
  dedup : String
  level : AlertLevel
  track : Option Track
  orderId : Option String
  message : String
  deriving DecidableEq, Repr

/-- A row of `alerts`. -/
structure AlertRow extends AlertInput where
  id : ℕ
  raisedAt : ℤ
  ackedAt : Option ℤ
  deriving DecidableEq, Repr

/-- The key of a row, `UNIQUE` in the table. -/
abbrev AlertRow.key (a : AlertRow) : String := a.dedup

/-- The alerts beside the other tables. -/
structure AlertBook (U : Type) where
  alerts : KeyedTable AlertRow.key
  others : U

/-- What `JSON.parse` makes of the payload of an effect: the fields are there when they are
texts. -/
inductive PayloadRead
  | unreadable
  | null
  | fields (paymentHash orderId : Option String)
  deriving DecidableEq, Repr

/-- `AdminContext`, as far as alerts use it.  `envelope` is the event that carries a text to an
operator, `canSeal` tells whether an operator's key is one to seal for, and `holdOf` is the purpose
and the order of an invoice. -/
structure AlertCtx (kinds : String → Bool) (U : Type) where
  operators : List String
  canSeal : String → Bool
  envelope : String → String → String
  statePayload : String → String
  readPayload : String → PayloadRead
  holdOf : U → String → Option (String × String)
  publishes : kinds "nostr.publish" = true
  showsState : kinds "admin.state" = true

namespace AlertCtx

variable {kinds : String → Bool} {U : Type} (c : AlertCtx kinds U) (now : ℤ)

/-! ## Raising and acknowledging -/

/-- One effect for each operator. -/
def toOperators (kind : String) (payload : String → String) (dedup : String → Option String)
    (db : QueueDb (AlertBook U)) : Except String (QueueDb (AlertBook U)) :=
  forEach c.operators
    (fun o db => (enqueueEffect kinds now kind (payload o) (dedup o) 0 db).map Prod.snd) db

/-- `notifyOperators`; `wrapEvent` throws for an operator whose key is none. -/
def notifyOperators (text : String) (db : QueueDb (AlertBook U)) :
    Except String (QueueDb (AlertBook U)) :=
  if c.operators.all c.canSeal then
    c.toOperators now "nostr.publish" (fun o => c.envelope o ("[페어바이] " ++ text)) (fun _ => none) db
  else .error "bad point: is not on curve"

/-- `requestStatePublish`. -/
def requestStatePublish : QueueDb (AlertBook U) → Except String (QueueDb (AlertBook U)) :=
  c.toOperators now "admin.state" c.statePayload fun o => some ("admin-state:" ++ o)

/-- The next `AUTOINCREMENT` id; no row is ever deleted. -/
def nextAlertId (alerts : KeyedTable AlertRow.key) : ℕ :=
  match (alerts.rows.map AlertRow.id).max? with
  | none => 1
  | some n => n + 1

/-- The row an alert is recorded as; `raised_at` is in seconds. -/
def alertRow (id : ℕ) (alert : AlertInput) : AlertRow :=
  { alert with id := id, raisedAt := now / 1000, ackedAt := none }

end AlertCtx

/-- The text of the message that announces an alert. -/
def AlertInput.text (alert : AlertInput) : String :=
  match alert.orderId with
  | some orderId => if orderId = "" then alert.message else alert.message ++ " (" ++ orderId ++ ")"
  | none => alert.message

/-- The acknowledgement of the row under `id`. -/
def AlertRow.ack (id : ℕ) (time : ℤ) (a : AlertRow) : AlertRow :=
  if a.id = id ∧ a.ackedAt = none then { a with ackedAt := some time } else a

theorem AlertRow.key_ack (id : ℕ) (time : ℤ) (a : AlertRow) : (a.ack id time).key = a.key := by
  unfold ack
  split <;> rfl

namespace AlertCtx

variable {kinds : String → Bool} {U : Type} (c : AlertCtx kinds U) (now : ℤ)

/-- `raiseAlert`: `false` when the key is taken, and then nobody is told. -/
def raiseAlert (alert : AlertInput) (db : QueueDb (AlertBook U)) :
    Except String (Bool × QueueDb (AlertBook U)) :=
  match db.rest.alerts.insert (alertRow now (nextAlertId db.rest.alerts) alert) with
  | none => .ok (false, db)
  | some alerts => do
    let db ← c.notifyOperators now alert.text { db with rest := { db.rest with alerts := alerts } }
    let db ← c.requestStatePublish now db
    .ok (true, db)

/-- `ackAlert`. -/
def ackAlert (id : ℕ) (db : QueueDb (AlertBook U)) : Except String (Bool × QueueDb (AlertBook U)) :=
  if ∃ a ∈ db.rest.alerts.rows, a.id = id ∧ a.ackedAt = none then do
    let alerts := db.rest.alerts.map (·.ack id (now / 1000)) (AlertRow.key_ack id (now / 1000))
    let db ← c.requestStatePublish now { db with rest := { db.rest with alerts := alerts } }
    .ok (true, db)
  else .ok (false, db)

/-! ## The effects that keep failing -/

end AlertCtx

/-- `STUCK_EFFECT_ATTEMPTS`. -/
def stuckEffectAttempts : ℕ := 6

/-- The kinds of `WATCHED`; `LIKE` takes no notice of the case of letters. -/
def watchedKind (kind : String) : Bool :=
  ["ln.", "oc.", "hold."].any fun p => p.toList.isPrefixOf (kind.toList.map Char.toLower)

/-- An effect that somebody should look at. -/
def EffectRow.IsStuck (r : EffectRow) : Prop :=
  r.status = .pending ∧ stuckEffectAttempts ≤ r.attempts ∧ watchedKind r.kind = true

instance (r : EffectRow) : Decidable r.IsStuck := inferInstanceAs (Decidable (_ ∧ _))

/-- The key of the alert about an effect. -/
def stuckKey (id : ℕ) : String := "effect:" ++ toString id ++ ":stuck"

/-- Different effects have different keys. -/
theorem stuckKey_inj {a b : ℕ} (h : stuckKey a = stuckKey b) : a = b := by
  unfold stuckKey at h
  have hnum : toString a = toString b :=
    (String.append_right_inj _).mp ((String.append_left_inj _).mp h)
  refine toDigits_injective ?_
  simpa using congrArg String.toList hnum

namespace AlertCtx

variable {kinds : String → Bool} {U : Type} (c : AlertCtx kinds U) (now : ℤ)

/-- `locate`: the track and the order of an effect.  Reading a field of `null` throws. -/
def locate (others : U) (kind payload : String) : Except String (Option Track × Option String) :=
  match c.readPayload payload with
  | .unreadable => .ok (none, none)
  | .null => .error "TypeError"
  | .fields (some paymentHash) _ =>
    match c.holdOf others paymentHash with
    | some (purpose, orderId) =>
      .ok (some (if "oc-".toList.isPrefixOf purpose.toList then .onchain else .ln), some orderId)
    | none => .ok (none, none)
  | .fields none orderId =>
    .ok (if "ln.".toList.isPrefixOf kind.toList then some .ln
      else if "oc.".toList.isPrefixOf kind.toList then some .onchain else none, orderId)

/-- The alert about an effect; an order without a number is no order. -/
def stuckAlert (r : EffectRow) (place : Option Track × Option String) : AlertInput where
  dedup := stuckKey r.id
  level := .anomaly
  track := place.1
  orderId := place.2.filter (· ≠ "")
  message := r.kind ++ "이(가) " ++ toString r.attempts ++ "번 실패했다: " ++ r.lastError.getD "?"

/-- One round of the loop of `raiseStuckEffects`. -/
def raiseStuck (r : EffectRow) (db : QueueDb (AlertBook U)) :
    Except String (QueueDb (AlertBook U)) := do
  let place ← c.locate db.rest.others r.kind r.payload
  (c.raiseAlert now (stuckAlert r place) db).map Prod.snd

/-- `raiseStuckEffects`. -/
def raiseStuckEffects (db : QueueDb (AlertBook U)) : Except String (QueueDb (AlertBook U)) :=
  forEach (db.effects.rows.filter fun r => r.IsStuck) (c.raiseStuck now) db

end AlertCtx

/-! ## What is stacked for the operators -/

section Stacking

variable {kinds : String → Bool} {T : Type} {now : ℤ} {db db' db'' : QueueDb T}

/-- The effects of a table are there later, for the same kind and payload. -/
def EffectsStay (effects effects' : KeyedTable EffectRow.id) : Prop :=
  ∀ id r, effects.find id = some r →
    ∃ r', effects'.find id = some r' ∧ r'.kind = r.kind ∧ r'.payload = r.payload

theorem EffectsStay.refl (effects : KeyedTable EffectRow.id) : EffectsStay effects effects :=
  fun _ r hr => ⟨r, hr, rfl, rfl⟩

theorem EffectsStay.trans {e e' e'' : KeyedTable EffectRow.id} (h : EffectsStay e e')
    (h' : EffectsStay e' e'') : EffectsStay e e'' := by
  intro id r hr
  obtain ⟨r', hr', hk, hp⟩ := h id r hr
  obtain ⟨r'', hr'', hk', hp'⟩ := h' id r' hr'
  exact ⟨r'', hr'', hk'.trans hk, hp'.trans hp⟩

theorem effectsStay_of_steps (h : Relation.ReflTransGen (QueueStep kinds now) db db') :
    EffectsStay db.effects db'.effects := by
  intro id r hr
  obtain ⟨r', hr', hk⟩ := find_kept_of_steps h hr
  exact ⟨r', hr', hk.kind, hk.payload⟩

/-- A write to one row that keeps its kind and payload. -/
theorem effectsStay_update (effects : KeyedTable EffectRow.id) (k : ℕ) (f : EffectRow → EffectRow)
    (hf : ∀ r, (f r).id = r.id) (hkind : ∀ r, (f r).kind = r.kind)
    (hpayload : ∀ r, (f r).payload = r.payload) : EffectsStay effects (effects.update k f hf) := by
  intro id r hr
  rw [KeyedTable.find_update, hr]
  split
  · exact ⟨f r, rfl, hkind r, hpayload r⟩
  · exact ⟨r, rfl, rfl, rfl⟩

theorem effectsStay_finish (k : ℕ) (status : EffectStatus) (error : Option String) (now : ℤ)
    (db : QueueDb T) : EffectsStay db.effects (finishEffect k status error now db).effects :=
  effectsStay_update db.effects k (·.finish status error now) (fun _ => rfl) (fun _ => rfl)
    fun _ => rfl

theorem effectsStay_markDead (row : EffectRow) (attempts : ℕ) (error : String) (now : ℤ)
    (db : QueueDb T) : EffectsStay db.effects (markDead row attempts error now db).effects := by
  have hcounted := effectsStay_update db.effects row.id (fun r => { r with attempts := attempts })
    (fun _ => rfl) (fun _ => rfl) fun _ => rfl
  exact hcounted.trans (effectsStay_finish row.id .dead (some error) now ⟨_, db.rest⟩)

theorem effectsStay_putOff (row : EffectRow) (error : String) (delayMs : Option ℤ) (now : ℤ)
    (db : QueueDb T) : EffectsStay db.effects (putOffEffect row error delayMs now db).effects :=
  effectsStay_update db.effects row.id
    (·.putOff (row.attempts + 1) (now + delayMs.getD (backoffMs (row.attempts + 1))) error)
    (fun _ => rfl) (fun _ => rfl) fun _ => rfl

/-- An effect of a kind with a payload is in the table. -/
def Stacked (effects : KeyedTable EffectRow.id) (kind payload : String) : Prop :=
  ∃ id r, effects.find id = some r ∧ r.kind = kind ∧ r.payload = payload

theorem Stacked.stays {e e' : KeyedTable EffectRow.id} {kind payload : String}
    (h : Stacked e kind payload) (hs : EffectsStay e e') : Stacked e' kind payload := by
  obtain ⟨id, r, hr, hk, hp⟩ := h
  obtain ⟨r', hr', hk', hp'⟩ := hs id r hr
  exact ⟨id, r', hr', hk'.trans hk, hp'.trans hp⟩

/-- The next id is free. -/
theorem find_nextEffectId (effects : KeyedTable EffectRow.id) :
    effects.find (nextEffectId effects) = none := by
  rw [KeyedTable.find_eq_none_iff_notMem]
  intro hmem
  unfold nextEffectId at hmem
  split at hmem
  · rename_i hnone
    rw [List.max?_eq_none_iff.mp hnone] at hmem
    cases hmem
  · rename_i n hmax
    have hle := (List.max?_eq_some_iff.mp hmax).2 _ hmem
    omega

/-- What `enqueue` does with a kind that is registered: without a key, an effect is stacked. -/
theorem enqueueEffect_ok (now : ℤ) {kind : String} (hkind : kinds kind = true) (payload : String)
    (dedup : Option String) (delayMs : ℤ) (db : QueueDb T) :
    ∃ stacked db', enqueueEffect kinds now kind payload dedup delayMs db = .ok (stacked, db') ∧
      db'.rest = db.rest ∧ (dedup = none → Stacked db'.effects kind payload) := by
  unfold enqueueEffect
  rw [if_neg (by rw [hkind]; decide)]
  split
  · rename_i hkey
    exact ⟨_, _, rfl, rfl, fun hnone => absurd hnone hkey.1⟩
  · cases hins : db.effects.insert
        (newEffect (nextEffectId db.effects) now kind payload dedup delayMs) with
    | none =>
      rw [KeyedTable.insert_eq_none_iff] at hins
      obtain ⟨r, hr⟩ := hins
      exact absurd ((find_nextEffectId db.effects).symm.trans hr) (Option.some_ne_none r).symm
    | some effects =>
      refine ⟨_, _, rfl, rfl, fun _ => ?_⟩
      refine ⟨nextEffectId db.effects,
        newEffect (nextEffectId db.effects) now kind payload dedup delayMs, ?_, rfl, rfl⟩
      show effects.find (newEffect (nextEffectId db.effects) now kind payload dedup delayMs).id = _
      rw [KeyedTable.find_insert hins, if_pos rfl]

end Stacking

section Raising

variable {kinds : String → Bool} {U : Type} {c : AlertCtx kinds U} {now : ℤ}
  {db db' db'' : QueueDb (AlertBook U)} {alert : AlertInput}

/-- One effect for each operator of a list, by induction on the list. -/
theorem toOperators_spec (now : ℤ) {kind : String} (hkind : kinds kind = true)
    (payload : String → String) (dedup : String → Option String) (operators : List String) (db : QueueDb (AlertBook U)) :
    ∃ db', forEach operators (fun o db =>
        (enqueueEffect kinds now kind (payload o) (dedup o) 0 db).map Prod.snd) db = .ok db' ∧
      Relation.ReflTransGen (QueueStep kinds now) db db' ∧ db'.rest = db.rest ∧
      ∀ o ∈ operators, dedup o = none → Stacked db'.effects kind (payload o) := by
  induction operators generalizing db with
  | nil => exact ⟨db, rfl, .refl, rfl, fun _ h => by cases h⟩
  | cons o operators ih =>
    obtain ⟨stacked, db₁, h₁, hrest₁, hnew⟩ :=
      enqueueEffect_ok now hkind (payload o) (dedup o) 0 db
    obtain ⟨db', h', hsteps, hrest', hall⟩ := ih db₁
    refine ⟨db', ?_, ?_, hrest'.trans hrest₁, ?_⟩
    · rw [forEach_cons, h₁]
      exact h'
    · exact hsteps.head (.enqueue db db₁ kind (payload o) (dedup o) 0 stacked h₁)
    · intro p hp hnone
      rcases List.mem_cons.mp hp with rfl | hp
      · exact (hnew hnone).stays (effectsStay_of_steps hsteps)
      · exact hall p hp hnone

/-- The same alert in a later state; an acknowledgement stays as it was. -/
structure AlertRow.Stays (a a' : AlertRow) : Prop where
  input : a'.toAlertInput = a.toAlertInput
  id : a'.id = a.id
  raisedAt : a'.raisedAt = a.raisedAt
  acked : a.ackedAt ≠ none → a'.ackedAt = a.ackedAt

theorem AlertRow.Stays.refl (a : AlertRow) : a.Stays a := ⟨rfl, rfl, rfl, fun _ => rfl⟩

theorem AlertRow.Stays.trans {a a' a'' : AlertRow} (h : a.Stays a') (h' : a'.Stays a'') :
    a.Stays a'' := by
  refine ⟨h'.input.trans h.input, h'.id.trans h.id, h'.raisedAt.trans h.raisedAt, fun hne => ?_⟩
  have ha := h.acked hne
  rw [h'.acked (by rwa [ha]), ha]

theorem AlertRow.stays_ack (k : ℕ) (time : ℤ) (a : AlertRow) : a.Stays (a.ack k time) := by
  unfold AlertRow.ack
  split
  · rename_i h
    exact ⟨rfl, rfl, rfl, fun hne => absurd h.2 hne⟩
  · exact .refl a

/-- Each alert has its message to each operator in the queue. -/
def AlertCtx.Told (c : AlertCtx kinds U) (db : QueueDb (AlertBook U)) : Prop :=
  ∀ key a, db.rest.alerts.find key = some a → ∀ o ∈ c.operators,
    Stacked db.effects "nostr.publish" (c.envelope o ("[페어바이] " ++ a.text))

/-- What becomes of the alerts: those there stay, with their messages, and the others are
`fresh`. -/
structure AlertCtx.Later (c : AlertCtx kinds U) (fresh : AlertInput → Prop)
    (db db' : QueueDb (AlertBook U)) : Prop where
  stays : ∀ key a, db.rest.alerts.find key = some a →
    ∃ a', db'.rest.alerts.find key = some a' ∧ a.Stays a'
  told : c.Told db → c.Told db'
  fresh : ∀ key a', db'.rest.alerts.find key = some a' →
    db.rest.alerts.find key ≠ none ∨ fresh a'.toAlertInput

variable {fresh : AlertInput → Prop}

/-- A change of the effects that keeps those there. -/
theorem AlertCtx.Later.effects (h : EffectsStay db.effects db'.effects)
    (hrest : db'.rest.alerts = db.rest.alerts) : c.Later fresh db db' := by
  refine ⟨fun key a ha => ⟨a, hrest ▸ ha, .refl a⟩, fun htold key a ha o ho => ?_, fun key a' ha' => ?_⟩
  · rw [hrest] at ha
    exact (htold key a ha o ho).stays h
  · rw [hrest] at ha'
    exact .inl (by rw [ha']; exact Option.some_ne_none a')

theorem AlertCtx.Later.trans (h : c.Later fresh db db') (h' : c.Later fresh db' db'') :
    c.Later fresh db db'' := by
  refine ⟨fun key a ha => ?_, fun htold => h'.told (h.told htold), fun key a'' ha'' => ?_⟩
  · obtain ⟨a', ha', hs⟩ := h.stays key a ha
    obtain ⟨a'', ha'', hs'⟩ := h'.stays key a' ha'
    exact ⟨a'', ha'', hs.trans hs'⟩
  · rcases h'.fresh key a'' ha'' with hold | hfresh
    · obtain ⟨a', ha'⟩ := Option.ne_none_iff_exists'.mp hold
      obtain ⟨b, hb, hs⟩ := h'.stays key a' ha'
      obtain rfl := Option.some.inj (ha''.symm.trans hb)
      exact (h.fresh key a' ha').imp_right fun hf => hs.input.symm ▸ hf
    · exact .inr hfresh

theorem AlertCtx.Later.mono {fresh' : AlertInput → Prop} (h : c.Later fresh db db')
    (hmono : ∀ alert, fresh alert → fresh' alert) : c.Later fresh' db db' :=
  ⟨h.stays, h.told, fun key a' ha' => (h.fresh key a' ha').imp_right (hmono _)⟩

/-- **What `raiseAlert` does.**  Its alert is recorded afterwards, unless there is an operator it
cannot be sealed for. -/
theorem raiseAlert_spec (c : AlertCtx kinds U) (now : ℤ) (alert : AlertInput)
    (db : QueueDb (AlertBook U)) :
    ((∃ o ∈ c.operators, c.canSeal o = false) ∧ ∃ e, c.raiseAlert now alert db = .error e) ∨
    ∃ raised db', c.raiseAlert now alert db = .ok (raised, db') ∧
      Relation.ReflTransGen (QueueStep kinds now) db db' ∧ db'.rest.others = db.rest.others ∧
      c.Later (· = alert) db db' ∧ db'.rest.alerts.find alert.dedup ≠ none := by
  unfold AlertCtx.raiseAlert
  cases hins : db.rest.alerts.insert
      (AlertCtx.alertRow now (AlertCtx.nextAlertId db.rest.alerts) alert) with
  | none =>
    obtain ⟨a, ha⟩ := KeyedTable.insert_eq_none_iff.mp hins
    refine .inr ⟨false, db, rfl, .refl, rfl, .effects (.refl _) rfl, ?_⟩
    show db.rest.alerts.find
      (AlertCtx.alertRow now (AlertCtx.nextAlertId db.rest.alerts) alert).key ≠ none
    rw [ha]
    exact Option.some_ne_none a
  | some alerts =>
    by_cases hseal : c.operators.all c.canSeal = true
    case neg =>
      refine .inl ⟨by simpa using hseal, "bad point: is not on curve", ?_⟩
      show (c.notifyOperators now alert.text _ >>= fun db => _) = _
      rw [AlertCtx.notifyOperators, if_neg hseal]
      rfl
    obtain ⟨db₁, h₁, hsteps₁, hrest₁, hdm⟩ := toOperators_spec now c.publishes
      (fun o => c.envelope o ("[페어바이] " ++ alert.text)) (fun _ => none) c.operators
      { db with rest := { db.rest with alerts := alerts } }
    obtain ⟨db₂, h₂, hsteps₂, hrest₂, -⟩ := toOperators_spec now c.showsState
      c.statePayload (fun o => some ("admin-state:" ++ o)) c.operators db₁
    have hrest : db₂.rest = { db.rest with alerts := alerts } := hrest₂.trans hrest₁
    have hsteps : Relation.ReflTransGen (QueueStep kinds now) db db₂ :=
      (hsteps₁.head (.write db _)).trans hsteps₂
    have hfind := KeyedTable.find_insert hins
    refine .inr ⟨true, db₂, ?_, hsteps, by rw [hrest], ⟨?_, ?_, ?_⟩, ?_⟩
    · show (c.notifyOperators now alert.text _ >>= fun db => _) = _
      rw [AlertCtx.notifyOperators, if_pos hseal, AlertCtx.toOperators, h₁]
      show (c.toOperators now "admin.state" _ _ db₁ >>= fun db => _) = _
      rw [AlertCtx.toOperators, h₂]
      rfl
    · intro key a ha
      refine ⟨a, ?_, .refl a⟩
      rw [hrest]
      show alerts.find key = some a
      rw [hfind, if_neg, ha]
      intro he
      have hfree := KeyedTable.find_of_insert hins
      rw [he, ha] at hfree
      cases hfree
    · intro htold key a ha o ho
      rw [hrest] at ha
      have ha : alerts.find key = some a := ha
      rw [hfind] at ha
      split at ha
      · obtain rfl := Option.some.inj ha
        exact (hdm o ho rfl).stays (effectsStay_of_steps hsteps₂)
      · exact (htold key a ha o ho).stays (effectsStay_of_steps hsteps)
    · intro key a' ha'
      rw [hrest] at ha'
      have ha' : alerts.find key = some a' := ha'
      rw [hfind] at ha'
      split at ha'
      · obtain rfl := Option.some.inj ha'
        exact .inr rfl
      · exact .inl (by rw [ha']; exact Option.some_ne_none a')
    · rw [hrest]
      show alerts.find (AlertCtx.alertRow now (AlertCtx.nextAlertId db.rest.alerts) alert).key ≠ none
      rw [hfind, if_pos rfl]
      exact Option.some_ne_none _

/-- **What `ackAlert` does.** -/
theorem ackAlert_later {id : ℕ} {acked : Bool} (h : c.ackAlert now id db = .ok (acked, db')) :
    c.Later fresh db db' := by
  unfold AlertCtx.ackAlert at h
  split at h
  · obtain ⟨db₁, h₁, hsteps₁, hrest₁, -⟩ := toOperators_spec now c.showsState
      c.statePayload (fun o => some ("admin-state:" ++ o)) c.operators
      { db with rest := { db.rest with
          alerts := db.rest.alerts.map (·.ack id (now / 1000)) (AlertRow.key_ack id (now / 1000)) } }
    obtain ⟨db₂, h₂, h⟩ := Except.bind_eq_ok_iff.mp h
    rw [AlertCtx.requestStatePublish, AlertCtx.toOperators, h₁] at h₂
    obtain rfl := Except.ok.inj h₂
    cases h
    have hstay := effectsStay_of_steps hsteps₁
    have hfind := KeyedTable.find_map db.rest.alerts (·.ack id (now / 1000))
      (AlertRow.key_ack id (now / 1000))
    refine ⟨fun key a ha => ?_, fun htold key a ha o ho => ?_, fun key a' ha' => ?_⟩
    · refine ⟨a.ack id (now / 1000), ?_, a.stays_ack id (now / 1000)⟩
      rw [hrest₁, hfind, ha, Option.map_some]
    · rw [hrest₁, hfind, Option.map_eq_some_iff] at ha
      obtain ⟨b, hb, rfl⟩ := ha
      have htext : (b.ack id (now / 1000)).text = b.text :=
        congrArg AlertInput.text (b.stays_ack id (now / 1000)).input
      rw [htext]
      exact (htold key b hb o ho).stays hstay
    · rw [hrest₁, hfind, Option.map_eq_some_iff] at ha'
      obtain ⟨b, hb, -⟩ := ha'
      exact .inl (by rw [hb]; exact Option.some_ne_none b)
  · cases h
    exact .effects (.refl _) rfl

/-! ## One turn over the stuck effects -/

/-- `locate` throws on a payload that is `null`, and on no other. -/
theorem locate_ok {payload : String} (h : c.readPayload payload ≠ .null) (others : U)
    (kind : String) :
    ∃ place, c.locate others kind payload = .ok place := by
  unfold AlertCtx.locate
  cases hread : c.readPayload payload with
  | unreadable => exact ⟨_, rfl⟩
  | null => exact absurd hread h
  | fields paymentHash orderId =>
    cases paymentHash with
    | none => exact ⟨_, rfl⟩
    | some hash =>
      cases hhold : c.holdOf others hash with
      | none => exact ⟨(none, none), by simp only [hhold]⟩
      | some hold => exact ⟨_, by simp only [hhold]; rfl⟩

/-- The alert is one about the effect. -/
def EffectRow.IsAlertOf (r : EffectRow) (alert : AlertInput) : Prop :=
  ∃ place, alert = AlertCtx.stuckAlert r place

/-- Why a turn over these effects may throw. -/
def AlertCtx.Halts (c : AlertCtx kinds U) (rows : List EffectRow) : Prop :=
  (∃ r ∈ rows, c.readPayload r.payload = .null) ∨ ∃ o ∈ c.operators, c.canSeal o = false

theorem AlertCtx.Halts.mono {rows rows' : List EffectRow} (h : c.Halts rows) (hsub : rows ⊆ rows') :
    c.Halts rows' := by
  refine h.imp_left ?_
  rintro ⟨r, hr, hnull⟩
  exact ⟨r, hsub hr, hnull⟩

theorem raiseStuck_spec (c : AlertCtx kinds U) (now : ℤ) (r : EffectRow)
    (db : QueueDb (AlertBook U)) :
    (c.Halts [r] ∧ ∃ e, c.raiseStuck now r db = .error e) ∨
    ∃ db', c.raiseStuck now r db = .ok db' ∧
      Relation.ReflTransGen (QueueStep kinds now) db db' ∧ c.Later r.IsAlertOf db db' ∧
      db'.rest.alerts.find (stuckKey r.id) ≠ none := by
  by_cases hnull : c.readPayload r.payload = .null
  · refine .inl ⟨.inl ⟨r, List.mem_cons_self, hnull⟩, "TypeError", ?_⟩
    rw [AlertCtx.raiseStuck, AlertCtx.locate, hnull]
    rfl
  obtain ⟨place, hplace⟩ := locate_ok hnull db.rest.others r.kind
  have hraise : c.raiseStuck now r db =
      (c.raiseAlert now (AlertCtx.stuckAlert r place) db).map Prod.snd := by
    rw [AlertCtx.raiseStuck, hplace]
    rfl
  rw [hraise]
  rcases raiseAlert_spec c now (AlertCtx.stuckAlert r place) db with
    ⟨hkey, e, he⟩ | ⟨raised, db', h, hsteps, -, hlater, hthere⟩
  · rw [he]
    exact .inl ⟨.inr hkey, e, rfl⟩
  · rw [h]
    exact .inr ⟨db', rfl, hsteps, hlater.mono fun alert he => ⟨place, he⟩, hthere⟩

/-- **What `raiseStuckEffects` does**, by induction on the effects it goes over: each has its alert
afterwards, or one of them could not be read, or an operator not be sealed for, and the transaction
throws. -/
theorem raiseStuckEffects_spec (c : AlertCtx kinds U) (now : ℤ) (rows : List EffectRow)
    (db : QueueDb (AlertBook U)) :
    (c.Halts rows ∧
      ∃ e, forEach rows (c.raiseStuck now) db = .error e) ∨
    ∃ db', forEach rows (c.raiseStuck now) db = .ok db' ∧
      Relation.ReflTransGen (QueueStep kinds now) db db' ∧
      c.Later (fun alert => ∃ r ∈ rows, r.IsAlertOf alert) db db' ∧
      ∀ r ∈ rows, db'.rest.alerts.find (stuckKey r.id) ≠ none := by
  induction rows generalizing db with
  | nil => exact .inr ⟨db, rfl, .refl, .effects (.refl _) rfl, fun _ h => by cases h⟩
  | cons r rows ih =>
    rcases raiseStuck_spec c now r db with ⟨hhalt, e, he⟩ | ⟨db₁, h₁, hsteps₁, hlater₁, hthere₁⟩
    · refine .inl ⟨hhalt.mono (List.cons_subset_cons r (List.nil_subset rows)), e, ?_⟩
      rw [forEach_cons, he]
      rfl
    · have hrun : forEach (r :: rows) (c.raiseStuck now) db =
          forEach rows (c.raiseStuck now) db₁ := by
        rw [forEach_cons, h₁]
        rfl
      rw [hrun]
      rcases ih db₁ with ⟨hhalt, herr⟩ | ⟨db', h', hsteps, hlater, hthere⟩
      · exact .inl ⟨hhalt.mono (List.subset_cons_self r rows), herr⟩
      · have hfirst : c.Later (fun alert => ∃ q ∈ r :: rows, q.IsAlertOf alert) db db₁ :=
          hlater₁.mono fun alert ha => ⟨r, List.mem_cons_self, ha⟩
        have hothers : c.Later (fun alert => ∃ q ∈ r :: rows, q.IsAlertOf alert) db₁ db' := by
          refine hlater.mono ?_
          rintro alert ⟨q, hq, ha⟩
          exact ⟨q, List.mem_cons_of_mem _ hq, ha⟩
        refine .inr ⟨db', h', hsteps₁.trans hsteps, hfirst.trans hothers, fun q hq => ?_⟩
        rcases List.mem_cons.mp hq with rfl | hq
        · obtain ⟨a, ha⟩ := Option.ne_none_iff_exists'.mp hthere₁
          obtain ⟨a', ha', -⟩ := hlater.stays _ a ha
          rw [ha']
          exact Option.some_ne_none a'
        · exact hthere q hq

theorem raiseStuckEffects_steps (c : AlertCtx kinds U) (now : ℤ) (db db' : QueueDb (AlertBook U))
    (h : c.raiseStuckEffects now db = .ok db') :
    Relation.ReflTransGen (QueueStep kinds now) db db' := by
  rcases raiseStuckEffects_spec c now (db.effects.rows.filter fun r => r.IsStuck) db with
    ⟨-, e, he⟩ | ⟨db₁, h₁, hsteps, -, -⟩
  · rw [AlertCtx.raiseStuckEffects, he] at h
    cases h
  · rw [AlertCtx.raiseStuckEffects, h₁] at h
    exact (Except.ok.inj h) ▸ hsteps

end Raising

/-! ## The daemon around it -/

section System

variable {kinds : String → Bool} {U R : Type}

/-- `raiseStuckEffects` as the body of its transaction. -/
def AlertCtx.stuckBody (c : AlertCtx kinds U) : TxBody kinds (AlertBook U) where
  run := c.raiseStuckEffects
  steps := raiseStuckEffects_steps c

/-- What other code in a transaction may do: nothing else touches the alerts, and nobody else uses
the keys of stuck effects. -/
inductive AlertCtx.Beside (c : AlertCtx kinds U) (now : ℤ) :
    QueueDb (AlertBook U) → QueueDb (AlertBook U) → Prop
  | queue {db db'} (h : QueueStep kinds now db db') (halerts : db'.rest.alerts = db.rest.alerts) :
      Beside c now db db'
  | raise {db db'} (alert : AlertInput) (raised : Bool) (hkey : ∀ id, alert.dedup ≠ stuckKey id)
      (h : c.raiseAlert now alert db = .ok (raised, db')) : Beside c now db db'
  | ack {db db'} (id : ℕ) (acked : Bool) (h : c.ackAlert now id db = .ok (acked, db')) :
      Beside c now db db'

/-- Any other code that runs in a transaction. -/
structure Bystander (c : AlertCtx kinds U) where
  body : TxBody kinds (AlertBook U)
  beside : ∀ now db db', body.run now db = .ok db' →
    Relation.ReflTransGen (c.Beside now) db db'

/-- An executor whose callbacks are bystanders. -/
structure BystanderExecutor (c : AlertCtx kinds U) (R : Type) where
  onDone : String → R → Bystander c
  onDead : String → String → Bystander c
  onRetry : String → String → Bystander c
  maxAttempts : Option ℕ

/-- The executor itself. -/
def BystanderExecutor.executor {c : AlertCtx kinds U} (ex : BystanderExecutor c R) :
    EffectExecutor kinds (AlertBook U) R where
  onDone payload result := (ex.onDone payload result).body
  onDead payload error := (ex.onDead payload error).body
  onRetry payload error := (ex.onRetry payload error).body
  maxAttempts := ex.maxAttempts

/-- A step of somebody; `stuck` is the turn's transaction. -/
inductive AlertTurn (c : AlertCtx kinds U) (R : Type)
  | tick (ms : ℕ)
  | transact (b : Bystander c)
  | stuck
  | runDue (limit : ℕ)
  | execute
  | answer (outcome : EffectOutcome R)
  | crash

/-- The same step as the effect queue takes it. -/
def AlertTurn.input {c : AlertCtx kinds U} : AlertTurn c R → QueueInput kinds (AlertBook U) R
  | .tick ms => .tick ms
  | .transact b => .transact b.body
  | .stuck => .transact c.stuckBody
  | .runDue limit => .runDue limit
  | .execute => .execute
  | .answer outcome => .answer outcome
  | .crash => .crash

/-- A daemon that starts without effects and alerts. -/
def alertSystem {c : AlertCtx kinds U} (executors : String → BystanderExecutor c R) :
    TransitionSystem (QueueWorld (AlertBook U)) (AlertTurn c R) where
  init w := ∃ others now, w = ⟨⟨.empty, ⟨.empty, others⟩⟩, now, none, false, [], []⟩
  step w i := QueueWorld.step (fun kind => (executors kind).executor) w i.input

/-- The alert is not about a stuck effect. -/
def AlertInput.NotStuck (alert : AlertInput) : Prop := ∀ id, alert.dedup ≠ stuckKey id

variable {c : AlertCtx kinds U} {executors : String → BystanderExecutor c R} {now : ℤ}
  {db db' : QueueDb (AlertBook U)} {w w' : QueueWorld (AlertBook U)}

theorem AlertCtx.Beside.later (h : c.Beside now db db') :
    c.Later AlertInput.NotStuck db db' := by
  cases h with
  | queue h halerts => exact .effects (effectsStay_of_steps (.single h)) halerts
  | raise alert raised hkey h =>
    rcases raiseAlert_spec c now alert db with
      ⟨-, e, he⟩ | ⟨raised', db₁, hraise, -, -, hlater, -⟩
    · rw [he] at h
      cases h
    · rw [hraise] at h
      cases h
      refine hlater.mono ?_
      rintro _ rfl
      exact hkey
  | ack id acked h => exact ackAlert_later h

theorem Bystander.later {b : Bystander c} (h : b.body.run now db = .ok db') :
    c.Later AlertInput.NotStuck db db' := by
  have hsteps := b.beside now db db' h
  clear h
  induction hsteps with
  | refl => exact .effects (.refl _) rfl
  | tail _ hstep ih => exact ih.trans hstep.later

/-- A recording marks one effect and runs one callback. -/
theorem recordOutcome_later {ex : BystanderExecutor c R} {row : EffectRow}
    {outcome : EffectOutcome R} (h : recordOutcome ex.executor row outcome now db = .ok db') :
    c.Later AlertInput.NotStuck db db' := by
  have hmark : ∀ (b : Bystander c) (db₁ : QueueDb (AlertBook U)),
      EffectsStay db.effects db₁.effects → db₁.rest.alerts = db.rest.alerts →
      b.body.run now db₁ = .ok db' → c.Later AlertInput.NotStuck db db' := by
    intro b db₁ hstay hrest hrun
    exact (AlertCtx.Later.effects hstay hrest).trans (Bystander.later hrun)
  have hretry : ∀ error delayMs, retryEffect ex.executor row error delayMs now db = .ok db' →
      c.Later AlertInput.NotStuck db db' := by
    intro error delayMs h
    unfold retryEffect at h
    split at h
    · exact hmark (ex.onDead row.payload _) _ (effectsStay_markDead row _ _ now db) rfl h
    · exact hmark (ex.onRetry row.payload error) _ (effectsStay_putOff row error delayMs now db) rfl h
  cases outcome with
  | done result =>
    cases hdone : (ex.executor.onDone row.payload result).run now
        (finishEffect row.id .done none now db) with
    | ok db₁ =>
      simp only [recordOutcome, hdone] at h
      obtain rfl := Except.ok.inj h
      exact hmark (ex.onDone row.payload result) _ (effectsStay_finish row.id .done none now db) rfl
        hdone
    | error e =>
      simp only [recordOutcome, hdone] at h
      exact hretry _ _ h
  | retry error delayMs => exact hretry _ _ h
  | dead error =>
    exact hmark (ex.onDead row.payload error) _ (effectsStay_markDead row row.attempts error now db)
      rfl h
  | threw error => exact hretry _ _ h

/-- A step of anybody but the turn over the stuck effects. -/
theorem step_later {i : AlertTurn c R} (hi : i ≠ .stuck)
    (hs : (alertSystem executors).step w i = some w') : c.Later AlertInput.NotStuck w.db w'.db := by
  have hsame : w'.db = w.db → c.Later AlertInput.NotStuck w.db w'.db := by
    intro hdb
    rw [hdb]
    exact .effects (.refl _) rfl
  cases i with
  | tick ms =>
    obtain rfl := Option.some.inj hs
    exact hsame rfl
  | transact b =>
    obtain rfl := Option.some.inj hs
    show c.Later AlertInput.NotStuck w.db (b.body.commit w.now w.db)
    unfold TxBody.commit
    split
    · exact Bystander.later ‹_›
    · exact .effects (.refl _) rfl
  | stuck => exact absurd rfl hi
  | runDue limit =>
    simp only [alertSystem, AlertTurn.input, QueueWorld.step] at hs
    split at hs
    · cases hs
    · obtain rfl := Option.some.inj hs
      exact hsame rfl
  | execute =>
    simp only [alertSystem, AlertTurn.input, QueueWorld.step] at hs
    split at hs
    · obtain rfl := Option.some.inj hs
      exact hsame rfl
    · rename_i row rest _ _
      split at hs
      · obtain rfl := Option.some.inj hs
        exact hsame rfl
      · obtain rfl := Option.some.inj hs
        exact .effects (effectsStay_finish row.id .dead _ w.now w.db) rfl
    · cases hs
  | answer outcome =>
    have hs : QueueWorld.step (fun kind => (executors kind).executor) w (.answer outcome) = some w' :=
      hs
    obtain ⟨row, rest, -, -, ⟨-, rfl⟩ | hrec⟩ := step_answer hs
    · exact hsame rfl
    · exact recordOutcome_later hrec.run
  | crash =>
    obtain rfl := Option.some.inj hs
    exact hsame rfl

/-- The turn over the stuck effects: each has its alert afterwards, and nothing else is new; or a
payload could not be read, or an operator not be sealed for, and nothing is changed. -/
theorem step_stuck (hs : (alertSystem executors).step w .stuck = some w') :
    (((∃ r ∈ w.db.effects.rows, r.IsStuck ∧ c.readPayload r.payload = .null) ∨
      ∃ o ∈ c.operators, c.canSeal o = false) ∧ w'.db = w.db) ∨
    c.Later (fun alert => ∃ r ∈ w.db.effects.rows, r.IsStuck ∧ r.IsAlertOf alert) w.db w'.db ∧
      ∀ r ∈ w.db.effects.rows, r.IsStuck → w'.db.rest.alerts.find (stuckKey r.id) ≠ none := by
  obtain rfl := Option.some.inj hs
  show (_ ∧ c.stuckBody.commit w.now w.db = w.db) ∨
    c.Later _ w.db (c.stuckBody.commit w.now w.db) ∧ ∀ r ∈ _, _ →
      (c.stuckBody.commit w.now w.db).rest.alerts.find _ ≠ none
  have hmem : ∀ r, r ∈ w.db.effects.rows.filter (fun r => r.IsStuck) ↔
      r ∈ w.db.effects.rows ∧ r.IsStuck := by
    intro r
    rw [List.mem_filter, decide_eq_true_iff]
  have hrun : c.stuckBody.run w.now w.db =
    forEach (w.db.effects.rows.filter fun r => r.IsStuck) (c.raiseStuck w.now) w.db := rfl
  unfold TxBody.commit
  rw [hrun]
  rcases raiseStuckEffects_spec c w.now (w.db.effects.rows.filter fun r => r.IsStuck) w.db with
    ⟨hhalt, e, he⟩ | ⟨db', h', -, hlater, hthere⟩
  · rw [he]
    refine .inl ⟨hhalt.imp_left ?_, rfl⟩
    rintro ⟨r, hr, hnull⟩
    exact ⟨r, ((hmem r).mp hr).1, ((hmem r).mp hr).2, hnull⟩
  · rw [h']
    refine .inr ⟨hlater.mono ?_, fun r hr hstuck => hthere r ((hmem r).mpr ⟨hr, hstuck⟩)⟩
    rintro alert ⟨r, hr, ha⟩
    exact ⟨r, ((hmem r).mp hr).1, ((hmem r).mp hr).2, ha⟩

/-- What any step does to the alerts. -/
theorem step_alerts {i : AlertTurn c R} (hs : (alertSystem executors).step w i = some w') :
    c.Later (fun alert => (i = .stuck ∧ ∃ r ∈ w.db.effects.rows, r.IsStuck ∧ r.IsAlertOf alert) ∨
      alert.NotStuck) w.db w'.db := by
  by_cases hi : i = .stuck
  · subst hi
    rcases step_stuck hs with ⟨-, hdb⟩ | ⟨hlater, -⟩
    · rw [hdb]
      exact .effects (.refl _) rfl
    · exact hlater.mono fun alert ha => .inl ⟨rfl, ha⟩
  · exact (step_later hi hs).mono fun alert ha => .inr ha

theorem told_of_reachable (hw : (alertSystem executors).Reachable w) : c.Told w.db := by
  refine TransitionSystem.invariant (P := fun w => c.Told w.db) ?_ ?_ hw
  · rintro _ ⟨others, now, rfl⟩ key a ha
    cases ha
  · intro a i b _ ha hs
    exact (step_alerts hs).told ha

theorem stays_of_run {is : List (AlertTurn c R)} (hrun : (alertSystem executors).run w is = some w')
    {key : String} {a : AlertRow} (ha : w.db.rest.alerts.find key = some a) :
    ∃ a', w'.db.rest.alerts.find key = some a' ∧ a.Stays a' := by
  induction is generalizing w a with
  | nil =>
    obtain rfl := Option.some.inj hrun
    exact ⟨a, ha, .refl a⟩
  | cons i is ih =>
    rw [TransitionSystem.run, Option.bind_eq_some_iff] at hrun
    obtain ⟨u, hu, hrun⟩ := hrun
    obtain ⟨a₁, ha₁, h₁⟩ := (step_alerts hu).stays key a ha
    obtain ⟨a', ha', h'⟩ := ih hrun ha₁
    exact ⟨a', ha', h₁.trans h'⟩

/-- **A stuck effect calls the operators once.**  In every run, with other transactions, the effect
worker and crashes in between: each alert has its message to every operator in the queue; an alert
stays for good, so its key is never raised again; a turn raises the alert of every stuck effect, or
changes nothing because the payload of one is `null` or an operator's key is none; and the alert of
an effect first appears in a turn that finds this very effect stuck. -/
theorem stuck_called_once (hw : (alertSystem executors).Reachable w) :
    (∀ a ∈ w.db.rest.alerts.rows, ∀ o ∈ c.operators, ∃ r ∈ w.db.effects.rows,
      r.kind = "nostr.publish" ∧ r.payload = c.envelope o ("[페어바이] " ++ a.text)) ∧
    (∀ is w', (alertSystem executors).run w is = some w' → ∀ a ∈ w.db.rest.alerts.rows,
      ∃ a' ∈ w'.db.rest.alerts.rows, a.Stays a') ∧
    (∀ w', (alertSystem executors).step w .stuck = some w' →
      (((∃ r ∈ w.db.effects.rows, r.IsStuck ∧ c.readPayload r.payload = .null) ∨
        ∃ o ∈ c.operators, c.canSeal o = false) ∧ w'.db = w.db) ∨
      ∀ r ∈ w.db.effects.rows, r.IsStuck → ∃ a ∈ w'.db.rest.alerts.rows, a.dedup = stuckKey r.id) ∧
    ∀ i w', (alertSystem executors).step w i = some w' →
      ∀ a ∈ w'.db.rest.alerts.rows, ∀ id, a.dedup = stuckKey id →
        (∃ a₀ ∈ w.db.rest.alerts.rows, a₀.dedup = stuckKey id) ∨
        (i = .stuck ∧ ∃ r ∈ w.db.effects.rows, r.id = id ∧ r.IsStuck ∧
          r.IsAlertOf a.toAlertInput) := by
  refine ⟨fun a ha o ho => ?_, fun is w' hrun a ha => ?_, fun w' hs => ?_,
    fun i w' hs a ha id hid => ?_⟩
  · obtain ⟨id, r, hr, hkind, hpayload⟩ :=
      told_of_reachable hw _ a (KeyedTable.find_key_of_mem ha) o ho
    exact ⟨r, KeyedTable.mem_of_find hr, hkind, hpayload⟩
  · obtain ⟨a', ha', hstays⟩ := stays_of_run hrun (KeyedTable.find_key_of_mem ha)
    exact ⟨a', KeyedTable.mem_of_find ha', hstays⟩
  · refine (step_stuck hs).imp_right fun h r hr hstuck => ?_
    have hthere := h.2
    obtain ⟨a, ha⟩ := Option.ne_none_iff_exists'.mp (hthere r hr hstuck)
    have hkey := KeyedTable.key_of_find ha
    exact ⟨a, KeyedTable.mem_of_find ha, hkey⟩
  · rcases (step_alerts hs).fresh _ a (KeyedTable.find_key_of_mem ha) with
      hold | ⟨hi, r, hr, hstuck, hof⟩ | hother
    · obtain ⟨a₀, ha₀⟩ := Option.ne_none_iff_exists'.mp hold
      exact .inl ⟨a₀, KeyedTable.mem_of_find ha₀, (KeyedTable.key_of_find ha₀).trans hid⟩
    · refine .inr ⟨hi, r, hr, ?_, hstuck, hof⟩
      obtain ⟨place, hplace⟩ := hof
      refine stuckKey_inj ?_
      rw [← hid, hplace]
      rfl
    · exact absurd hid (hother id)

end System

/-! ### A payment that fails six times -/

section Payout

/-- Three registered effects. -/
def payoutKinds (kind : String) : Bool :=
  ["nostr.publish", "admin.state", "ln.payout"].contains kind

/-- One operator, and payloads without an invoice. -/
def payoutCtx : AlertCtx payoutKinds Unit where
  operators := ["op"]
  canSeal _ := true
  envelope operator text := operator ++ ": " ++ text
  statePayload := id
  readPayload _ := .fields none (some "o1")
  holdOf _ _ := none
  publishes := rfl
  showsState := rfl

theorem payout_beside (now : ℤ) (db db' : QueueDb (AlertBook Unit))
    (h : (enqueueEffect payoutKinds now "ln.payout" "" none 0 db).map Prod.snd = .ok db') :
    QueueStep payoutKinds now db db' ∧ db'.rest.alerts = db.rest.alerts := by
  obtain ⟨⟨stacked, db₁⟩, h₁, rfl⟩ := Except.map_eq_ok_iff.mp h
  refine ⟨.enqueue db db₁ "ln.payout" "" none 0 stacked h₁, ?_⟩
  rcases enqueueEffect_spec h₁ with he | ⟨effects, he, -⟩
  · exact congrArg (fun d => d.rest.alerts) he
  · exact congrArg (fun d => d.rest.alerts) he

theorem payout_steps (now : ℤ) (db db' : QueueDb (AlertBook Unit))
    (h : (enqueueEffect payoutKinds now "ln.payout" "" none 0 db).map Prod.snd = .ok db') :
    Relation.ReflTransGen (QueueStep payoutKinds now) db db' :=
  .single (payout_beside now db db' h).1

theorem payout_bystands (now : ℤ) (db db' : QueueDb (AlertBook Unit))
    (h : (enqueueEffect payoutKinds now "ln.payout" "" none 0 db).map Prod.snd = .ok db') :
    Relation.ReflTransGen (payoutCtx.Beside now) db db' :=
  .single (.queue (payout_beside now db db' h).1 (payout_beside now db db' h).2)

/-- A transaction that asks for a payout. -/
def askPayout : Bystander payoutCtx where
  body := ⟨fun now db => (enqueueEffect payoutKinds now "ln.payout" "" none 0 db).map Prod.snd,
    payout_steps⟩
  beside := payout_bystands

theorem skip_beside (now : ℤ) (db db' : QueueDb (AlertBook Unit))
    (h : (TxBody.skip payoutKinds (AlertBook Unit)).run now db = .ok db') :
    Relation.ReflTransGen (payoutCtx.Beside now) db db' := by
  obtain rfl := Except.ok.inj h
  exact .refl

/-- A callback that is not given. -/
def noCallback : Bystander payoutCtx := ⟨TxBody.skip payoutKinds (AlertBook Unit), skip_beside⟩

/-- An executor without callbacks. -/
def payoutExecutor : BystanderExecutor payoutCtx Unit where
  onDone _ _ := noCallback
  onDead _ _ := noCallback
  onRetry _ _ := noCallback
  maxAttempts := none

/-- The daemon before it begins. -/
def payoutStart : QueueWorld (AlertBook Unit) :=
  ⟨⟨.empty, ⟨.empty, ()⟩⟩, 0, none, false, [], []⟩

/-- One try that fails. -/
def failedTry : List (AlertTurn payoutCtx Unit) :=
  [.tick 600000, .runDue 1, .execute, .answer (.retry "down" none), .execute]

/-- A payout that fails six times. -/
def failedPayout : List (AlertTurn payoutCtx Unit) :=
  .transact askPayout :: (List.replicate 6 failedTry).flatten

theorem failedPayout_run : ∃ w, (alertSystem fun _ => payoutExecutor).run payoutStart failedPayout =
    some w ∧ ∃ r ∈ w.db.effects.rows, r.id = 1 ∧ r.IsStuck := by
  have h : ((alertSystem fun _ => payoutExecutor).run payoutStart failedPayout).any
      (fun w => ∃ r ∈ w.db.effects.rows, r.id = 1 ∧ r.IsStuck) = true := by decide +kernel
  obtain ⟨w, hw, hr⟩ := (Option.any_eq_true _ _).mp h
  exact ⟨w, hw, of_decide_eq_true hr⟩

/-- After the sixth failure the next turn calls the operators about it. -/
theorem stuck_called_once_payout :
    ∃ w w', (alertSystem fun _ => payoutExecutor).run payoutStart failedPayout = some w ∧
      (alertSystem fun _ => payoutExecutor).step w .stuck = some w' ∧
      ∃ a ∈ w'.db.rest.alerts.rows, a.dedup = stuckKey 1 := by
  obtain ⟨w, hw, r, hr, hid, hstuck⟩ := failedPayout_run
  have hinit : (alertSystem fun _ => payoutExecutor).Reachable payoutStart := .init ⟨(), 0, rfl⟩
  have hreach := hinit.run hw
  refine ⟨w, _, hw, rfl, ?_⟩
  rcases (stuck_called_once hreach).2.2.1 _ rfl with
    ⟨⟨q, -, -, hnull⟩ | ⟨o, -, hseal⟩, -⟩ | hall
  · cases hnull
  · cases hseal
  · exact hid ▸ hall r hr hstuck

end Payout

end LnPay
