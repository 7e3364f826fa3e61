/-
# Requests take effect once

Whatever the relays deliver and wherever the daemon crashes, the inbox keeps one
row an event, a row is closed once, and the writes of a handler are there exactly
when its row says that it was handled.

* `InboxWorld.Turn` says what one step can do to the database,
* `InboxInv` is the invariant over all runs,
* `requests_take_effect_once` puts the parts together.
-/
import LnPay.InboxDispatch

namespace LnPay

variable {D : Type} {opts : InboxOptions} {w w' : InboxWorld D} {i : InboxInput D}
  {db db' : InboxDb D}

/-! ## What the operations do to a row -/

/-- The same event, received at the same time; once it is closed the row stays as it is. -/
structure InboxRow.Lasts (r r' : InboxRow) : Prop where
  event : r'.event = r.event
  receivedAt : r'.receivedAt = r.receivedAt
  closed : r.processedAt ≠ none → r' = r

theorem InboxRow.Lasts.refl (r : InboxRow) : r.Lasts r := ⟨rfl, rfl, fun _ => rfl⟩

theorem InboxRow.Lasts.trans {r r' r'' : InboxRow} (h : r.Lasts r') (h' : r'.Lasts r'') :
    r.Lasts r'' where
  event := h'.event.trans h.event
  receivedAt := h'.receivedAt.trans h.receivedAt
  closed hr := by
    have hsame := h.closed hr
    rw [h'.closed (by rwa [hsame]), hsame]

/-- The row of that id is closed. -/
def Closed (db : InboxDb D) (id : String) : Prop :=
  ∃ r, db.inbox.find id = some r ∧ r.processedAt ≠ none

/-- The writes of `close`. -/
def InboxRow.close (r : InboxRow) (outcome : String) (nowMs : ℤ) : InboxRow :=
  { r with processedAt := some nowMs, outcome := some outcome }

theorem find_closeEvent (id outcome : String) (nowMs : ℤ) (db : InboxDb D) (k : String) :
    (closeEvent id outcome nowMs db).inbox.find k =
      if k = id then (db.inbox.find k).map (·.close outcome nowMs) else db.inbox.find k :=
  KeyedTable.find_update db.inbox id (·.close outcome nowMs) (fun _ => rfl) k

/-- What `accept` does to the database when the event is a new one. -/
theorem accept_spec {nowMs : ℤ} {e : RelayEvent} (h : accept opts nowMs e db = some db') :
    admits opts e = true ∧ db'.data = db.data ∧ db'.cursor = movedCursor opts nowMs e db ∧
      db.inbox.insert ⟨e, nowMs, none, none⟩ = some db'.inbox := by
  unfold accept at h
  split at h
  · rename_i hadm
    obtain ⟨inbox, hins, rfl⟩ := Option.map_eq_some_iff.mp h
    exact ⟨hadm, rfl, rfl, hins⟩
  · cases h

theorem find_accept {nowMs : ℤ} {e : RelayEvent} (h : accept opts nowMs e db = some db')
    (k : String) : db'.inbox.find k =
      if e.id = k then some ⟨e, nowMs, none, none⟩ else db.inbox.find k :=
  KeyedTable.find_insert (accept_spec h).2.2.2 k

/-- An open row of the table that has been held long enough is eligible, and nothing else is. -/
theorem mem_eligible {nowMs : ℤ} {r : InboxRow} : r ∈ eligible opts nowMs db ↔
    r ∈ db.inbox.rows ∧ r.processedAt = none ∧ r.receivedAt ≤ nowMs - opts.holdMs := by
  rw [eligible, List.mem_insertionSort, List.mem_filter]
  simp

theorem nodup_pendingEvents (nowMs : ℤ) (limit : ℕ) (db : InboxDb D) :
    ((pendingEvents opts nowMs limit db).map RelayEvent.id).Nodup := by
  have hrows : ((eligible opts nowMs db).map InboxRow.id).Nodup := by
    refine ((List.perm_insertionSort _ _).map InboxRow.id).nodup_iff.mpr ?_
    exact db.inbox.nodup.sublist (List.filter_sublist.map _)
  rw [pendingEvents, List.map_map]
  exact hrows.sublist ((List.take_sublist _ _).map _)

theorem mem_pendingEvents {nowMs : ℤ} {limit : ℕ} {e : RelayEvent}
    (h : e ∈ pendingEvents opts nowMs limit db) :
    ∃ r, db.inbox.find e.id = some r ∧ r.event = e ∧ r.processedAt = none := by
  obtain ⟨r, hr, rfl⟩ := List.mem_map.mp h
  obtain ⟨hrow, hopen, -⟩ := mem_eligible.mp (List.mem_of_mem_take hr)
  exact ⟨r, KeyedTable.find_key_of_mem hrow, rfl, hopen⟩

/-! ## What one step does -/

/-- What a step does to the database and to what is written about it. -/
inductive InboxWorld.Turn (opts : InboxOptions) (w : InboxWorld D) :
    InboxInput D → InboxWorld D → Prop
  /-- the inbox stays as it is; the other tables change in a transaction of somebody else -/
  | keep {i : InboxInput D} {w' : InboxWorld D} (inbox : w'.db.inbox = w.db.inbox)
      (cursor : w'.db.cursor = w.db.cursor) (committed : w'.committed = w.committed)
      (acceptedAt : w'.acceptedAt = w.acceptedAt)
      (data : w'.db.data = w.db.data ∨ ∃ write, i = .transact write)
      (loop : w'.loop = w.loop ∨ (w'.loop = none ∧ (w.loop = some [] ∨ i = .crash)) ∨
        (w.loop = none ∧ ∃ limit, w'.loop = some (pendingEvents opts w.nowMs limit w.db))) :
      w.Turn opts i w'
  | accepted {e : RelayEvent} {db : InboxDb D} (idle : w.loop = none)
      (h : accept opts w.nowMs e w.db = some db) :
      w.Turn opts (.deliver e) { w with db := db, acceptedAt := w.acceptedAt ++ [w.nowMs] }
  /-- an event is closed without a trace of its handler -/
  | closed {i : InboxInput D} {e : RelayEvent} {rest : List RelayEvent} {outcome : String}
      {thrown : Option String} (loop : w.loop = some (e :: rest)) : w.Turn opts i
        { w with db := closeEvent e.id outcome w.nowMs w.db, loop := some rest, thrown := thrown }
  /-- an event is closed together with the writes of its handler -/
  | committed {route : RelayEvent → Option (Handler D)} {handler : Handler D} {e : RelayEvent}
      {rest : List RelayEvent} {result : HandlerResult} {data : D}
      (loop : w.loop = some (e :: rest)) (hroute : route e = some handler)
      (run : handler w.db.data = (.ok result, data)) : w.Turn opts (.process route)
        { w with
          db := closeEvent e.id result.outcome w.nowMs { w.db with data := data }
          loop := some rest
          committed := w.committed ++ [e.id] }

/-- Handing an event to its handler, once. -/
theorem step_process (opts : InboxOptions) {route : RelayEvent → Option (Handler D)} {e : RelayEvent}
    {rest : List RelayEvent} {handler : Handler D} (hl : w.loop = some (e :: rest))
    (ht : w.thrown = none) (hroute : route e = some handler) :
    (∃ result data, handler w.db.data = (.ok result, data) ∧
      InboxWorld.step opts w (.process route) = some { w with
        db := closeEvent e.id result.outcome w.nowMs { w.db with data := data }
        loop := some rest
        committed := w.committed ++ [e.id] }) ∨
    ∃ m data, handler w.db.data = (.error m, data) ∧
      InboxWorld.step opts w (.process route) = some { w with thrown := some m } := by
  simp only [InboxWorld.step, hl, ht, hroute]
  cases hrun : handler w.db.data with
  | mk r data =>
    cases r with
    | ok result =>
      have hbody : handleAndClose handler e.id w.nowMs w.db =
          (.ok result, closeEvent e.id result.outcome w.nowMs { w.db with data := data }) := by
        rw [handleAndClose, hrun]
      rw [tx_ok hbody]
      exact .inl ⟨result, data, rfl, rfl⟩
    | error m =>
      have hbody : handleAndClose handler e.id w.nowMs w.db =
          (.error m, { w.db with data := data }) := by
        rw [handleAndClose, hrun]
      rw [tx_error hbody]
      exact .inr ⟨m, data, rfl, rfl⟩

/-- **What one step does.** -/
theorem InboxWorld.turn (hs : InboxWorld.step opts w i = some w') : w.Turn opts i w' := by
  cases i with
  | clock nowMs =>
    obtain rfl := Option.some.inj hs
    exact .keep rfl rfl rfl rfl (.inl rfl) (.inl rfl)
  | deliver e =>
    simp only [InboxWorld.step] at hs
    split at hs
    · cases hs
    · obtain rfl := Option.some.inj hs
      exact .keep rfl rfl rfl rfl (.inl rfl) (.inl rfl)
    · rename_i hl hacc
      obtain rfl := Option.some.inj hs
      exact .accepted hl hacc
  | transact write =>
    simp only [InboxWorld.step] at hs
    split at hs
    · cases hs
    · obtain rfl := Option.some.inj hs
      exact .keep rfl rfl rfl rfl (.inr ⟨write, rfl⟩) (.inl rfl)
  | runPending limit =>
    simp only [InboxWorld.step] at hs
    split at hs
    · cases hs
    · rename_i hl
      obtain rfl := Option.some.inj hs
      exact .keep rfl rfl rfl rfl (.inl rfl) (.inr (.inr ⟨hl, limit, rfl⟩))
  | process route =>
    cases hl : w.loop with
    | none =>
      simp only [InboxWorld.step, hl] at hs
      cases hs
    | some es =>
      cases es with
      | nil =>
        simp only [InboxWorld.step, hl] at hs
        obtain rfl := Option.some.inj hs
        exact .keep rfl rfl rfl rfl (.inl rfl) (.inr (.inl ⟨rfl, .inl hl⟩))
      | cons e rest =>
        cases ht : w.thrown with
        | some m =>
          simp only [InboxWorld.step, hl, ht] at hs
          cases hs
        | none =>
          cases hroute : route e with
          | none =>
            simp only [InboxWorld.step, hl, ht, hroute] at hs
            obtain rfl := Option.some.inj hs
            exact .closed hl
          | some handler =>
            rcases step_process opts hl ht hroute with ⟨result, data, hrun, hw⟩ | ⟨m, data, -, hw⟩
            · obtain rfl := Option.some.inj (hw.symm.trans hs)
              exact .committed hl hroute hrun
            · obtain rfl := Option.some.inj (hw.symm.trans hs)
              exact .keep rfl rfl rfl rfl (.inl rfl) (.inl rfl)
  | close =>
    simp only [InboxWorld.step] at hs
    split at hs
    · rename_i hl _
      obtain rfl := Option.some.inj hs
      exact .closed hl
    · cases hs
  | crash =>
    obtain rfl := Option.some.inj hs
    exact .keep rfl rfl rfl rfl (.inl rfl) (.inr (.inl ⟨rfl, .inr rfl⟩))

/-! ## The invariant -/

/-- What holds in every state of the daemon. -/
structure InboxInv (opts : InboxOptions) (w : InboxWorld D) : Prop where
  /-- nothing forged is in the inbox -/
  admitted : ∀ r ∈ w.db.inbox.rows, admits opts r.event = true
  /-- what the loop has still to process is open, once each -/
  nodup : ∀ es, w.loop = some es → (es.map RelayEvent.id).Nodup
  todo : ∀ es, w.loop = some es → ∀ e ∈ es,
    ∃ r, w.db.inbox.find e.id = some r ∧ r.event = e ∧ r.processedAt = none
  /-- a handler is committed once, and its event is closed with its result -/
  once : w.committed.Nodup
  handled : ∀ id ∈ w.committed, ∃ r result, w.db.inbox.find id = some r ∧ r.processedAt ≠ none ∧
    r.outcome = some (HandlerResult.outcome result)
  cursor : ∀ c, w.db.cursor = some c →
    ∃ t ∈ w.acceptedAt, c ≤ ((t / 1000 + maxFutureSkewSec : ℤ) : ℚ)

/-- Closing the first event of the loop leaves the rest of the loop open. -/
theorem InboxInv.todo_closeEvent (h : InboxInv opts w) {e : RelayEvent} {rest : List RelayEvent}
    (hl : w.loop = some (e :: rest)) (outcome : String) (data : D) :
    ∀ e' ∈ rest, ∃ r, (closeEvent e.id outcome w.nowMs { w.db with data := data }).inbox.find e'.id =
      some r ∧ r.event = e' ∧ r.processedAt = none := by
  intro e' he'
  have hnd : e.id ∉ rest.map RelayEvent.id ∧ (rest.map RelayEvent.id).Nodup :=
    List.nodup_cons.mp (h.nodup _ hl)
  have hne : e'.id ≠ e.id := fun he => hnd.1 (he ▸ List.mem_map_of_mem he')
  obtain ⟨r, hr, hrest⟩ := h.todo _ hl e' (List.mem_cons_of_mem _ he')
  exact ⟨r, by rw [find_closeEvent, if_neg hne]; exact hr, hrest⟩

/-- A row that is closed is not the one being processed. -/
theorem InboxInv.ne_of_closed (h : InboxInv opts w) {e : RelayEvent} {rest : List RelayEvent}
    (hl : w.loop = some (e :: rest)) {id : String} (hc : Closed w.db id) : id ≠ e.id := by
  rintro rfl
  obtain ⟨r, hr, hclosed⟩ := hc
  obtain ⟨q, hq, -, hopen⟩ := h.todo _ hl e List.mem_cons_self
  obtain rfl := Option.some.inj (hr.symm.trans hq)
  exact hclosed hopen

theorem mem_rows_closeEvent {id outcome : String} {nowMs : ℤ} {r : InboxRow}
    (hr : r ∈ (closeEvent id outcome nowMs db).inbox.rows) :
    ∃ r₀ ∈ db.inbox.rows, r.event = r₀.event := by
  obtain ⟨r₀, hr₀, rfl⟩ := List.mem_map.mp hr
  refine ⟨r₀, hr₀, ?_⟩
  split <;> rfl

/-- **Every step keeps the invariant.** -/
theorem InboxInv.turn (h : InboxInv opts w) (ht : w.Turn opts i w') : InboxInv opts w' := by
  cases ht with
  | keep inbox cursor committed acceptedAt data loop =>
    refine ⟨?_, ?_, ?_, ?_, ?_, ?_⟩
    · rw [inbox]
      exact h.admitted
    · intro es hes
      rcases loop with hl | ⟨hl, -⟩ | ⟨-, limit, hl⟩
      · exact h.nodup es (hl ▸ hes)
      · rw [hl] at hes
        cases hes
      · obtain rfl := Option.some.inj (hl.symm.trans hes)
        exact nodup_pendingEvents _ _ _
    · intro es hes e he
      rw [inbox]
      rcases loop with hl | ⟨hl, -⟩ | ⟨-, limit, hl⟩
      · exact h.todo es (hl ▸ hes) e he
      · rw [hl] at hes
        cases hes
      · obtain rfl := Option.some.inj (hl.symm.trans hes)
        exact mem_pendingEvents he
    · rw [committed]
      exact h.once
    · rw [committed, inbox]
      exact h.handled
    · rw [cursor, acceptedAt]
      exact h.cursor
  | accepted idle hacc =>
    rename_i e db
    obtain ⟨hadm, -, hcur, hins⟩ := accept_spec hacc
    refine ⟨?_, ?_, ?_, h.once, ?_, ?_⟩
    · intro r hr
      rw [KeyedTable.rows_of_insert hins, List.mem_append, List.mem_singleton] at hr
      rcases hr with hr | rfl
      · exact h.admitted r hr
      · exact hadm
    · intro es hes
      rw [show w.loop = some es from hes] at idle
      cases idle
    · intro es hes
      rw [show w.loop = some es from hes] at idle
      cases idle
    · intro id hid
      obtain ⟨r, result, hr, hrest⟩ := h.handled id hid
      refine ⟨r, result, ?_, hrest⟩
      rw [find_accept hacc, if_neg, hr]
      intro he
      have hfree := KeyedTable.find_of_insert hins
      rw [show InboxRow.id ⟨e, w.nowMs, none, none⟩ = id from he, hr] at hfree
      cases hfree
    · intro c hc
      have hc : movedCursor opts w.nowMs e w.db = some c := hcur ▸ hc
      unfold movedCursor at hc
      split at hc
      · rename_i hmove
        obtain rfl := Option.some.inj hc
        exact ⟨w.nowMs, List.mem_append_right _ List.mem_cons_self, hmove.1⟩
      · obtain ⟨t, ht, hle⟩ := h.cursor c hc
        exact ⟨t, List.mem_append_left _ ht, hle⟩
  | closed loop =>
    rename_i e rest outcome _
    refine ⟨?_, ?_, ?_, h.once, ?_, h.cursor⟩
    · intro r hr
      obtain ⟨r₀, hr₀, hev⟩ := mem_rows_closeEvent hr
      rw [hev]
      exact h.admitted r₀ hr₀
    · rintro _ ⟨⟩
      exact (List.nodup_cons.mp (h.nodup _ loop)).2
    · rintro _ ⟨⟩
      exact h.todo_closeEvent loop outcome w.db.data
    · intro id hid
      obtain ⟨r, result, hr, hclosed, hout⟩ := h.handled id hid
      refine ⟨r, result, ?_, hclosed, hout⟩
      rw [find_closeEvent, if_neg (h.ne_of_closed loop ⟨r, hr, hclosed⟩), hr]
  | committed loop hroute hrun =>
    rename_i route handler e rest result data
    refine ⟨?_, ?_, ?_, ?_, ?_, h.cursor⟩
    · intro r hr
      obtain ⟨r₀, hr₀, hev⟩ := mem_rows_closeEvent hr
      rw [hev]
      exact h.admitted r₀ hr₀
    · rintro _ ⟨⟩
      exact (List.nodup_cons.mp (h.nodup _ loop)).2
    · rintro _ ⟨⟩
      exact h.todo_closeEvent loop result.outcome data
    · -- a committed event is closed, and this one is not
      refine List.nodup_append.mpr ⟨h.once, List.nodup_singleton _, ?_⟩
      intro id hid id' hid'
      obtain rfl := List.mem_singleton.mp hid'
      obtain ⟨r, -, hr, hclosed, -⟩ := h.handled id hid
      exact h.ne_of_closed loop ⟨r, hr, hclosed⟩
    · intro id hid
      rcases List.mem_append.mp hid with hid | hid
      · obtain ⟨r, res, hr, hclosed, hout⟩ := h.handled id hid
        refine ⟨r, res, ?_, hclosed, hout⟩
        rw [find_closeEvent, if_neg (h.ne_of_closed loop ⟨r, hr, hclosed⟩)]
        exact hr
      · obtain rfl := List.mem_singleton.mp hid
        obtain ⟨r, hr, -⟩ := h.todo _ loop e List.mem_cons_self
        have hfind : ({ w.db with data := data } : InboxDb D).inbox.find e.id = some r := hr
        refine ⟨r.close result.outcome w.nowMs, result, ?_, ?_, rfl⟩
        · rw [find_closeEvent, if_pos rfl, hfind, Option.map_some]
        · simp [InboxRow.close]

theorem inboxInv_of_reachable (hw : (inboxSystem D opts).Reachable w) : InboxInv opts w := by
  refine TransitionSystem.invariant (P := InboxInv opts) ?_ ?_ hw
  · rintro _ ⟨data, nowMs, rfl⟩
    refine ⟨?_, (fun _ h => by cases h), (fun _ h => by cases h), List.nodup_nil, ?_,
      (fun _ h => by cases h)⟩
    · intro r hr
      cases hr
    · intro id hid
      cases hid
  · intro a i b _ ha hs
    exact ha.turn (InboxWorld.turn hs)

/-! ## Over whole runs -/

/-- No step loses a row or opens a closed one. -/
theorem InboxInv.find_lasts (h : InboxInv opts w) (ht : w.Turn opts i w') {id : String}
    {r : InboxRow} (hr : w.db.inbox.find id = some r) :
    ∃ r', w'.db.inbox.find id = some r' ∧ r.Lasts r' := by
  -- closing the row of the loop's first event
  have hclose : ∀ (e : RelayEvent) rest outcome (data : D), w.loop = some (e :: rest) →
      ∃ r', (closeEvent e.id outcome w.nowMs { w.db with data := data }).inbox.find id = some r' ∧
        r.Lasts r' := by
    intro e rest outcome data hl
    have hfind : ({ w.db with data := data } : InboxDb D).inbox.find id = some r := hr
    rw [find_closeEvent, hfind]
    split
    · rename_i hid
      refine ⟨_, rfl, rfl, rfl, fun hclosed => ?_⟩
      exact absurd hid (h.ne_of_closed hl ⟨r, hr, hclosed⟩)
    · exact ⟨r, rfl, .refl r⟩
  cases ht with
  | keep inbox =>
    rw [inbox]
    exact ⟨r, hr, .refl r⟩
  | accepted idle hacc =>
    rename_i e db
    refine ⟨r, ?_, .refl r⟩
    show db.inbox.find id = some r
    rw [find_accept hacc, if_neg, hr]
    intro he
    have hfree := KeyedTable.find_of_insert (accept_spec hacc).2.2.2
    rw [show InboxRow.id ⟨e, w.nowMs, none, none⟩ = id from he, hr] at hfree
    cases hfree
  | closed loop => exact hclose _ _ _ _ loop
  | committed loop => exact hclose _ _ _ _ loop

/-- The cursor only moves on. -/
theorem InboxWorld.Turn.cursor_le (ht : w.Turn opts i w') :
    w.db.cursorOr opts ≤ w'.db.cursorOr opts := by
  cases ht with
  | keep inbox cursor =>
    unfold InboxDb.cursorOr
    rw [cursor]
  | accepted idle hacc =>
    rename_i e db
    show _ ≤ db.cursor.getD opts.epoch
    rw [(accept_spec hacc).2.2.1, movedCursor]
    split
    · rename_i hmove
      exact hmove.2.le
    · exact le_refl _
  | closed loop => exact le_refl _
  | committed loop => exact le_refl _

theorem lasts_of_run {is : List (InboxInput D)} (hw : (inboxSystem D opts).Reachable w)
    (hrun : (inboxSystem D opts).run w is = some w') :
    (∀ id r, w.db.inbox.find id = some r → ∃ r', w'.db.inbox.find id = some r' ∧ r.Lasts r') ∧
      w.db.cursorOr opts ≤ w'.db.cursorOr opts := by
  induction is generalizing w with
  | nil =>
    obtain rfl := Option.some.inj hrun
    exact ⟨fun id r hr => ⟨r, hr, .refl r⟩, le_refl _⟩
  | cons i is ih =>
    rw [TransitionSystem.run, Option.bind_eq_some_iff] at hrun
    obtain ⟨u, hu, hrun⟩ := hrun
    have hturn := InboxWorld.turn hu
    obtain ⟨hrest, hcursor⟩ := ih (hw.next hu) hrun
    refine ⟨?_, hturn.cursor_le.trans hcursor⟩
    intro id r hr
    obtain ⟨r₁, hr₁, h₁⟩ := (inboxInv_of_reachable hw).find_lasts hturn hr
    obtain ⟨r', hr', h'⟩ := hrest id r₁ hr₁
    exact ⟨r', hr', h₁.trans h'⟩

/-! ## Catching up -/

/-- Every event of a selection is closed, or is in the rest of the loop. -/
def InHand (w : InboxWorld D) (ids : List String) : Prop :=
  ∀ id ∈ ids, Closed w.db id ∨ ∃ es, w.loop = some es ∧ id ∈ es.map RelayEvent.id

theorem InHand.turn {ids : List String} (h : InHand w ids) (hinv : InboxInv opts w)
    (ht : w.Turn opts i w') (hi : i ≠ .crash) : InHand w' ids := by
  intro id hid
  have hlasts : Closed w.db id → Closed w'.db id := by
    rintro ⟨r, hr, hclosed⟩
    obtain ⟨r', hr', hk⟩ := hinv.find_lasts ht hr
    exact ⟨r', hr', by rwa [hk.closed hclosed]⟩
  -- the first event of the loop is the one that is closed
  have hclose : ∀ (e : RelayEvent) rest outcome (data : D), w.loop = some (e :: rest) →
      id ∈ (e :: rest).map RelayEvent.id →
      Closed (closeEvent e.id outcome w.nowMs { w.db with data := data }) id ∨
        id ∈ rest.map RelayEvent.id := by
    intro e rest outcome data hl hmem
    rcases List.mem_cons.mp hmem with rfl | hmem
    · obtain ⟨r, hr, -⟩ := hinv.todo _ hl e List.mem_cons_self
      have hfind : ({ w.db with data := data } : InboxDb D).inbox.find e.id = some r := hr
      refine .inl ⟨r.close outcome w.nowMs, ?_, by simp [InboxRow.close]⟩
      rw [find_closeEvent, if_pos rfl, hfind, Option.map_some]
    · exact .inr hmem
  rcases h id hid with hc | ⟨es, hl, hmem⟩
  · exact .inl (hlasts hc)
  · cases ht with
    | keep inbox cursor committed acceptedAt data loop =>
      rcases loop with hl' | ⟨-, hnil | hcrash⟩ | ⟨hnone, -⟩
      · exact .inr ⟨es, hl'.trans hl, hmem⟩
      · obtain rfl := Option.some.inj (hl.symm.trans hnil)
        cases hmem
      · exact absurd hcrash hi
      · rw [hl] at hnone
        cases hnone
    | accepted idle =>
      rw [hl] at idle
      cases idle
    | closed loop =>
      obtain rfl := Option.some.inj (hl.symm.trans loop)
      rcases hclose _ _ _ _ loop hmem with hc | hrest
      · exact .inl hc
      · exact .inr ⟨_, rfl, hrest⟩
    | committed loop =>
      obtain rfl := Option.some.inj (hl.symm.trans loop)
      rcases hclose _ _ _ _ loop hmem with hc | hrest
      · exact .inl hc
      · exact .inr ⟨_, rfl, hrest⟩

theorem InHand.run {ids : List String} {is : List (InboxInput D)} (h : InHand w ids)
    (hw : (inboxSystem D opts).Reachable w) (hrun : (inboxSystem D opts).run w is = some w')
    (his : ∀ i ∈ is, i ≠ .crash) : InHand w' ids := by
  induction is generalizing w with
  | nil =>
    obtain rfl := Option.some.inj hrun
    exact h
  | cons i is ih =>
    rw [TransitionSystem.run, Option.bind_eq_some_iff] at hrun
    obtain ⟨u, hu, hrun⟩ := hrun
    refine ih (h.turn (inboxInv_of_reachable hw) (InboxWorld.turn hu) (his i List.mem_cons_self))
      (hw.next hu) hrun ?_
    intro i' hi'
    exact his i' (List.mem_cons_of_mem _ hi')

/-- A call of `runPending` that returns has closed all it selected. -/
theorem closed_of_returned {limit : ℕ} {w₁ w₂ : InboxWorld D} {is : List (InboxInput D)}
    (hw : (inboxSystem D opts).Reachable w)
    (hs : InboxWorld.step opts w (.runPending limit) = some w₁) (his : ∀ i ∈ is, i ≠ .crash)
    (hrun : (inboxSystem D opts).run w₁ is = some w₂) (hret : w₂.loop = none) :
    ∀ r ∈ (eligible opts w.nowMs w.db).take limit, Closed w₂.db r.id := by
  have hw₁ : (inboxSystem D opts).Reachable w₁ := .step (i := InboxInput.runPending limit) hw trivial hs
  simp only [InboxWorld.step] at hs
  split at hs
  · cases hs
  · obtain rfl := Option.some.inj hs
    have hhand : InHand { w with
        loop := some (pendingEvents opts w.nowMs limit w.db), thrown := none }
        ((pendingEvents opts w.nowMs limit w.db).map RelayEvent.id) :=
      fun id hid => .inr ⟨_, rfl, hid⟩
    intro r hr
    have hmem : r.id ∈ (pendingEvents opts w.nowMs limit w.db).map RelayEvent.id := by
      rw [pendingEvents, List.map_map]
      exact List.mem_map_of_mem hr
    rcases hhand.run hw₁ hrun his r.id hmem with hc | ⟨es, hl, -⟩
    · exact hc
    · rw [hret] at hl
      cases hl

/-- Whatever the handlers do, a call of `runPending` returns. -/
theorem returns_of_loop (route : RelayEvent → Option (Handler D)) (es : List RelayEvent) :
    ∀ w : InboxWorld D, w.loop = some es → w.thrown = none →
      ∃ is w₂, (∀ i ∈ is, i = .process route ∨ i = .close) ∧
        (inboxSystem D opts).run w is = some w₂ ∧ w₂.loop = none := by
  induction es with
  | nil =>
    intro w hl _
    refine ⟨[.process route], { w with loop := none }, ?_, ?_, rfl⟩
    · intro i hi
      exact .inl (List.mem_singleton.mp hi)
    · have hstep : (inboxSystem D opts).step w (.process route) = some { w with loop := none } := by
        show InboxWorld.step opts w (.process route) = _
        simp only [InboxWorld.step, hl]
      rw [TransitionSystem.run, hstep]
      rfl
  | cons e rest ih =>
    intro w hl ht
    -- one event, in one step or two, and then the rest
    have hone : ∃ is w₁, (∀ i ∈ is, i = .process route ∨ i = .close) ∧
        (∀ is', (inboxSystem D opts).run w (is ++ is') = (inboxSystem D opts).run w₁ is') ∧
          w₁.loop = some rest ∧ w₁.thrown = none := by
      cases hroute : route e with
      | none =>
        refine ⟨[.process route], { w with
          db := closeEvent e.id noRoute w.nowMs w.db, loop := some rest }, ?_, ?_, rfl, ht⟩
        · intro i hi
          exact .inl (List.mem_singleton.mp hi)
        · intro is'
          have hstep : (inboxSystem D opts).step w (.process route) = some { w with
              db := closeEvent e.id noRoute w.nowMs w.db, loop := some rest } := by
            show InboxWorld.step opts w (.process route) = _
            simp only [InboxWorld.step, hl, ht, hroute]
          rw [List.singleton_append, TransitionSystem.run, hstep]
          rfl
      | some handler =>
        rcases step_process opts hl ht hroute with ⟨result, data, -, hstep⟩ | ⟨m, data, -, hstep⟩
        · refine ⟨[.process route], { w with
            db := closeEvent e.id result.outcome w.nowMs { w.db with data := data }
            loop := some rest
            committed := w.committed ++ [e.id] }, ?_, ?_, rfl, ht⟩
          · intro i hi
            exact .inl (List.mem_singleton.mp hi)
          · intro is'
            rw [List.singleton_append, TransitionSystem.run]
            show (InboxWorld.step opts w (.process route)).bind _ = _
            rw [hstep]
            rfl
        · refine ⟨[.process route, .close], { w with
            db := closeEvent e.id ("error:" ++ m) w.nowMs w.db, loop := some rest, thrown := none },
            ?_, ?_, rfl, rfl⟩
          · intro i hi
            rcases List.mem_cons.mp hi with rfl | hi
            · exact .inl rfl
            · exact .inr (List.mem_singleton.mp hi)
          · intro is'
            have hclose : (inboxSystem D opts).step { w with thrown := some m } .close =
                some { w with
                  db := closeEvent e.id ("error:" ++ m) w.nowMs w.db
                  loop := some rest
                  thrown := none } := by
              show InboxWorld.step opts _ .close = _
              simp only [InboxWorld.step, hl]
            rw [List.cons_append, List.singleton_append, TransitionSystem.run]
            show (InboxWorld.step opts w (.process route)).bind _ = _
            rw [hstep, Option.bind_some, TransitionSystem.run, hclose]
            rfl
    obtain ⟨is, w₁, his, hrun, hl₁, ht₁⟩ := hone
    obtain ⟨is', w₂, his', hrun', hret⟩ := ih w₁ hl₁ ht₁
    refine ⟨is ++ is', w₂, ?_, by rw [hrun, hrun'], hret⟩
    intro i hi
    rcases List.mem_append.mp hi with hi | hi
    · exact his i hi
    · exact his' i hi

/-! ## Once -/

/-- **Requests take effect once.**  In every run, with any deliveries and crashes at any point:
the writes of a handler are committed at most once for an event, in the step that closes its row
with the handler's result, and only such a step or a transaction of somebody else writes; an event
whose handler throws leaves its closed row and nothing else; only admitted events are in the inbox,
for good; a call of `runPending` always returns, with all that it selected closed, so that when it
selects all that are due every event received long enough ago is closed; and the cursor only moves
on, to at most 300 seconds after the clock at some acceptance. -/
theorem requests_take_effect_once (hw : (inboxSystem D opts).Reachable w) :
    (w.committed.Nodup ∧ (∀ id ∈ w.committed, ∃ r result, w.db.inbox.find id = some r ∧
        r.processedAt ≠ none ∧ r.outcome = some (HandlerResult.outcome result)) ∧
      ∀ i w', InboxWorld.step opts w i = some w' →
        (w'.committed = w.committed ∧ (w'.db.data = w.db.data ∨ ∃ write, i = .transact write)) ∨
        ∃ route handler e rest result data, i = .process route ∧ w.loop = some (e :: rest) ∧
          route e = some handler ∧ handler w.db.data = (.ok result, data) ∧
          w'.db = closeEvent e.id result.outcome w.nowMs { w.db with data := data } ∧
          w'.committed = w.committed ++ [e.id]) ∧
    (∀ route handler e rest m data, w.loop = some (e :: rest) → w.thrown = none →
      route e = some handler → handler w.db.data = (.error m, data) →
        ∃ w₁ w₂, InboxWorld.step opts w (.process route) = some w₁ ∧ w₁.db = w.db ∧
          InboxWorld.step opts w₁ .close = some w₂ ∧
          w₂.db = closeEvent e.id ("error:" ++ m) w.nowMs w.db) ∧
    ((∀ r ∈ w.db.inbox.rows, admits opts r.event = true) ∧
      ∀ is w' id r, (inboxSystem D opts).run w is = some w' → w.db.inbox.find id = some r →
        ∃ r', w'.db.inbox.find id = some r' ∧ r.Lasts r') ∧
    (∀ limit w₁, InboxWorld.step opts w (.runPending limit) = some w₁ →
      (∀ route, ∃ is w₂, (∀ i ∈ is, i = .process route ∨ i = .close) ∧
        (inboxSystem D opts).run w₁ is = some w₂ ∧ w₂.loop = none) ∧
      ∀ is w₂, (∀ i ∈ is, i ≠ .crash) → (inboxSystem D opts).run w₁ is = some w₂ →
        w₂.loop = none →
          (∀ r ∈ (eligible opts w.nowMs w.db).take limit, Closed w₂.db r.id) ∧
          ((eligible opts w.nowMs w.db).length ≤ limit → ∀ r ∈ w.db.inbox.rows,
            r.receivedAt ≤ w.nowMs - opts.holdMs → Closed w₂.db r.id)) ∧
    (∀ is w', (inboxSystem D opts).run w is = some w' →
      w.db.cursorOr opts ≤ w'.db.cursorOr opts) ∧
    ∀ c, w.db.cursor = some c → ∃ t ∈ w.acceptedAt, c ≤ ((t / 1000 + 300 : ℤ) : ℚ) := by
  have h := inboxInv_of_reachable hw
  refine ⟨⟨h.once, h.handled, ?_⟩, ?_, ⟨h.admitted, ?_⟩, ?_, ?_, h.cursor⟩
  · intro i w' hs
    cases InboxWorld.turn hs with
    | keep inbox cursor committed acceptedAt data => exact .inl ⟨committed, data⟩
    | accepted idle hacc => exact .inl ⟨rfl, .inl (accept_spec hacc).2.1⟩
    | closed loop => exact .inl ⟨rfl, .inl rfl⟩
    | committed loop hroute hrun => exact .inr ⟨_, _, _, _, _, _, rfl, loop, hroute, hrun, rfl, rfl⟩
  · intro route handler e rest m data hl ht hroute herr
    rcases step_process opts hl ht hroute with ⟨result, _, hok, -⟩ | ⟨m', _, herr', hstep⟩
    · rw [herr] at hok
      cases hok
    · rw [herr] at herr'
      obtain ⟨rfl, -⟩ : m = m' ∧ _ := by simpa using herr'
      refine ⟨_, { w with
        db := closeEvent e.id ("error:" ++ m) w.nowMs w.db, loop := some rest, thrown := none },
        hstep, rfl, ?_, rfl⟩
      simp only [InboxWorld.step, hl]
  · intro is w' id r hrun hr
    exact (lasts_of_run hw hrun).1 id r hr
  · intro limit w₁ hs
    have hcall : w₁.loop = some (pendingEvents opts w.nowMs limit w.db) ∧ w₁.thrown = none := by
      simp only [InboxWorld.step] at hs
      split at hs
      · cases hs
      · obtain rfl := Option.some.inj hs
        exact ⟨rfl, rfl⟩
    refine ⟨fun route => returns_of_loop route _ w₁ hcall.1 hcall.2, ?_⟩
    intro is w₂ his hrun hret
    have hclosed := closed_of_returned hw hs his hrun hret
    refine ⟨hclosed, ?_⟩
    intro hall r hr hold
    rw [List.take_of_length_le hall] at hclosed
    by_cases hopen : r.processedAt = none
    · exact hclosed r (mem_eligible.mpr ⟨hr, hopen, hold⟩)
    · obtain ⟨r', hr', hk⟩ := (lasts_of_run (.step (i := InboxInput.runPending limit) hw trivial hs) hrun).1 r.id r (by
        simp only [InboxWorld.step] at hs
        split at hs
        · cases hs
        · obtain rfl := Option.some.inj hs
          exact KeyedTable.find_key_of_mem hr)
      exact ⟨r', hr', by rwa [hk.closed hopen]⟩
  · intro is w' hrun
    exact (lasts_of_run hw hrun).2

/-! ## An inbox

A request is delivered twice, its first processing is lost in a crash. -/

/-- The options of the sample; every signature is good but that of the event called "forged". -/
def sampleOptions : InboxOptions where
  appPubkey := "app"
  epoch := 0
  holdMs := 1500
  verifyEvent e := e.id ≠ "forged"

/-- A request to the sample's app. -/
def sampleRequest (id : String) : RelayEvent :=
  ⟨id, "customer", 3838, 100, [["p", "app"], ["action", "order-request"]], "", ""⟩

/-- Its handler counts; it throws on the request called "bad". -/
def sampleRoute (e : RelayEvent) : Option (Handler ℕ) :=
  some fun n => if e.id = "bad" then (.error "bad", n + 7) else (.ok .ok, n + 1)

/-- A crash between handling and closing, and a second delivery. -/
def sampleDeliveries : List (InboxInput ℕ) :=
  [.deliver (sampleRequest "good"), .deliver (sampleRequest "forged"), .deliver (sampleRequest "bad"),
    .clock 200000, .runPending 200, .process sampleRoute, .crash, .deliver (sampleRequest "good"),
    .runPending 200, .process sampleRoute, .close, .process sampleRoute, .process sampleRoute]

theorem requests_take_effect_once_sample : ∃ w : InboxWorld ℕ,
    (inboxSystem ℕ sampleOptions).run ⟨⟨.empty, none, 0⟩, 100000, none, none, [], []⟩
      sampleDeliveries = some w ∧ w.committed = ["good"] ∧ w.db.data = 1 ∧ w.committed.Nodup := by
  have hrun : ((inboxSystem ℕ sampleOptions).run ⟨⟨.empty, none, 0⟩, 100000, none, none, [], []⟩
      sampleDeliveries).map (fun w => (w.committed, w.db.data)) = some (["good"], 1) := by
    decide +kernel
  obtain ⟨w, hw, hfacts⟩ := Option.map_eq_some_iff.mp hrun
  have hreach : (inboxSystem ℕ sampleOptions).Reachable w :=
    TransitionSystem.Reachable.run (.init ⟨0, 100000, rfl⟩) hw
  simp only [Prod.mk.injEq] at hfacts
  exact ⟨w, hw, hfacts.1, hfacts.2, (requests_take_effect_once hreach).1.1⟩

end LnPay
