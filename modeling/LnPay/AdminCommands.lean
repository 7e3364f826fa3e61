/-
# Operator commands (`daemon/src/admin/commands.ts`)

An operator sends a command as an encrypted event; the daemon checks who sent it
and when, executes it, and stacks the answer, all inside the transaction that
closes the event.

* `adminHandler` is the handler, over any registry of commands,
* `Serves` says that the daemon routes commands to it and that nothing else
  answers commands,
* `AdminInv` is what then holds in every run of the inbox.

The registry and the decryption are parameters.
-/
import LnPay.InboxLaws
import LnPay.Explorer

namespace LnPay

open Explorer

/-! ## The handler -/

/-- `AdminCommandResult`. -/
inductive AdminResult
  | ok (cmd : String) (result : Json)
  | error (cmd error : String)

/-- An answer on its way to an operator. -/
structure AdminAnswer where
  command : String
  operator : Pubkey
  createdAt : ℤ
  expiration : ℤ
  result : AdminResult

/-- The tables of the other handlers, and the answers stacked so far.  An answer is stacked under
the key of its command, which is never taken (`commands_answered_once`). -/
structure AdminDb (S : Type) where
  tables : S
  answers : List AdminAnswer

/-- `AdminContext`: the operators, the tag of the app, what an event says once it is opened
(`none` when it cannot be opened), and the registered commands. -/
structure AdminCtx (S : Type) where
  operators : List Pubkey
  appPubkey : Pubkey
  adminTag : String
  opened : RelayEvent → Option Json
  commands : String → Option (ℤ → Json → Program S AdminResult)

/-- What the clock says in turn while one command is handled, in milliseconds: when its age is
checked, when it is executed, and when its answer is made. -/
structure ClockReadings where
  checked : ℤ
  executed : ℤ
  replied : ℤ
  checked_le_executed : checked ≤ executed
  executed_le_replied : executed ≤ replied

/-- `ADMIN_COMMAND_TTL_SEC`. -/
def adminCommandTtlSec : ℤ := 10 * 60

/-- `FUTURE_SKEW_SEC`. -/
def futureSkewSec : ℤ := 5 * 60

/-- `isAdminCommand`: the command and its arguments, `{}` when there are none. -/
def readCommand (payload : Json) : Option (String × Json) :=
  match asString (payload.field "cmd") with
  | none => none
  | some cmd =>
    if cmd = "" then none
    else
      match payload.field "args" with
      | none => some (cmd, .obj [])
      | some (.obj fields) => some (cmd, .obj fields)
      | some _ => none

namespace AdminCtx

variable {S : Type} (c : AdminCtx S)

/-- `CommandRegistry.execute`, and what a payload that is no command comes to. -/
def execute (nowMs : ℤ) (payload : Json) : Program S AdminResult := fun tables =>
  match readCommand payload with
  | none => (.ok (.error "?" "bad-payload"), tables)
  | some (cmd, args) =>
    match c.commands cmd with
    | none => (.ok (.error cmd "unknown-command"), tables)
    | some handler => handler (nowMs / 1000) args tables

/-- `reply`, which reads the clock again. -/
def reply (nowMs : ℤ) (e : RelayEvent) (result : AdminResult) : AdminAnswer where
  command := e.id
  operator := e.pubkey
  createdAt := nowMs / 1000
  expiration := nowMs / 1000 + adminCommandTtlSec
  result := result

/-- `createAdminHandler`. -/
def adminHandler (clock : ClockReadings) (e : RelayEvent) : Handler (AdminDb S) := fun db =>
  if e.pubkey ∉ c.operators then (.ok (.ignored "not-operator"), db)
  else if e.createdAt < ((clock.checked / 1000 - adminCommandTtlSec : ℤ) : ℚ) then
    (.ok (.ignored "stale-command"), db)
  else if ((clock.checked / 1000 + futureSkewSec : ℤ) : ℚ) < e.createdAt then
    (.ok (.ignored "future-command"), db)
  else
    match c.opened e with
    | none => (.ok (.ignored "undecryptable"), db)
    | some payload =>
      match c.execute clock.executed payload db.tables with
      | (.error m, tables) => (.error m, { db with tables := tables })
      | (.ok result, tables) =>
        (.ok .ok, ⟨tables, db.answers ++ [reply clock.replied e result]⟩)

/-- An operator's command, as the router tells it. -/
def IsCommand (e : RelayEvent) : Prop :=
  e.pubkey ≠ c.appPubkey ∧ tagValue e.tags "t" = some c.adminTag ∧
    tagValue e.tags "action" = some "admin-command"

instance (e : RelayEvent) : Decidable (c.IsCommand e) := inferInstanceAs (Decidable (_ ∧ _ ∧ _))

/-- The handler of another request, which does not see the answers. -/
def besides (handler : Handler S) : Handler (AdminDb S) := fun db =>
  ((handler db.tables).1, { db with tables := (handler db.tables).2 })

/-- `route`: our own events and the commands of another mode go nowhere. -/
def route (clock : ClockReadings) (others : RelayEvent → Option (Handler S)) (e : RelayEvent) :
    Option (Handler (AdminDb S)) :=
  if e.pubkey = c.appPubkey then none
  else if c.IsCommand e then some (c.adminHandler clock e)
  else if tagValue e.tags "action" = some "admin-command" then none
  else (others e).map besides

/-- The daemon hands events out by `route`, whatever its clock says then, and the transactions of
others do not answer commands. -/
def Serves (_ : InboxWorld (AdminDb S)) : InboxInput (AdminDb S) → Prop
  | .process r => ∃ clock others, r = c.route clock others
  | .transact write => ∃ f : S → S, write = fun db => { db with tables := f db.tables }
  | _ => True

/-- The command came from an operator, and was neither too old nor too far ahead at a moment no later
than its answer was made. -/
structure Allowed (e : RelayEvent) (a : AdminAnswer) : Prop where
  isCommand : c.IsCommand e
  operator : e.pubkey ∈ c.operators
  answeredTo : a.operator = e.pubkey
  inTime : ∃ checked ≤ a.createdAt,
    ((checked - 600 : ℤ) : ℚ) ≤ e.createdAt ∧ e.createdAt ≤ ((checked + 300 : ℤ) : ℚ)

end AdminCtx

/-- Only what was done is recorded as done. -/
theorem HandlerResult.eq_ok_of_outcome {result : HandlerResult} (h : result.outcome = "ok") :
    result = .ok := by
  cases result with
  | ok => rfl
  | ignored reason =>
    have hhead := congrArg (fun s => s.toList.head?) h
    simp [HandlerResult.outcome] at hhead

/-! ## What one command does -/

section Commands

variable {S : Type} {c : AdminCtx S} {opts : InboxOptions} {clock : ClockReadings} {e : RelayEvent}
  {db db' : AdminDb S} {result : HandlerResult}

/-- **What the handler does when it does not throw.**  It refuses and leaves everything as it is, or
it executes the command of an operator in time and stacks the answer. -/
theorem adminHandler_ok (hcmd : c.IsCommand e)
    (h : c.adminHandler clock e db = (.ok result, db')) :
    (result ≠ .ok ∧ db' = db) ∨
    result = .ok ∧ ∃ payload answer, c.opened e = some payload ∧
      c.execute clock.executed payload db.tables = (.ok answer, db'.tables) ∧
      db'.answers = db.answers ++ [AdminCtx.reply clock.replied e answer] ∧
      c.Allowed e (AdminCtx.reply clock.replied e answer) := by
  have hrefused : ∀ reason, c.adminHandler clock e db = (.ok (.ignored reason), db) →
      result ≠ .ok ∧ db' = db := by
    intro reason he
    rw [h] at he
    cases he
    exact ⟨(by intro hr; cases hr), rfl⟩
  unfold AdminCtx.adminHandler at h hrefused
  split at h
  · rename_i hop
    exact .inl (hrefused "not-operator" (by rw [if_pos hop]))
  · rename_i hop
    rw [if_neg hop] at hrefused
    split at h
    · rename_i hstale
      exact .inl (hrefused "stale-command" (by rw [if_pos hstale]))
    · rename_i hstale
      rw [if_neg hstale] at hrefused
      split at h
      · rename_i hfuture
        exact .inl (hrefused "future-command" (by rw [if_pos hfuture]))
      · rename_i hfuture
        rw [if_neg hfuture] at hrefused
        split at h
        · rename_i hopened
          exact .inl (hrefused "undecryptable" (by rw [hopened]))
        · rename_i payload hopened
          split at h
          · cases h
          · rename_i answer tables hrun
            cases h
            have hlater : clock.checked / 1000 ≤ clock.replied / 1000 :=
              Int.ediv_le_ediv (by norm_num)
                (clock.checked_le_executed.trans clock.executed_le_replied)
            exact .inr ⟨rfl, payload, answer, hopened, hrun, rfl, hcmd, not_not.mp hop, rfl,
              clock.checked / 1000, hlater, not_lt.mp hstale, not_lt.mp hfuture⟩

/-- A handler that `route` gives is the one of commands, or does not touch the answers. -/
theorem route_cases {others : RelayEvent → Option (Handler S)} {handler : Handler (AdminDb S)}
    (h : c.route clock others e = some handler) :
    (c.IsCommand e ∧ handler = c.adminHandler clock e) ∨
    ¬c.IsCommand e ∧ ∀ db, (handler db).2.answers = db.answers := by
  unfold AdminCtx.route at h
  split at h
  · cases h
  · split at h
    · rename_i hcmd
      exact .inl ⟨hcmd, (Option.some.inj h).symm⟩
    · rename_i hcmd
      split at h
      · cases h
      · obtain ⟨g, -, rfl⟩ := Option.map_eq_some_iff.mp h
        exact .inr ⟨hcmd, fun _ => rfl⟩

end Commands

/-! ## Over every run -/

section Runs

variable {S : Type} {c : AdminCtx S} {opts : InboxOptions} {w w' : InboxWorld (AdminDb S)}
  {i : InboxInput (AdminDb S)}

/-- What holds of the answers in every state of the daemon. -/
structure AdminInv (c : AdminCtx S) (w : InboxWorld (AdminDb S)) : Prop where
  once : (w.db.data.answers.map AdminAnswer.command).Nodup
  /-- each answer is to a command that was closed with it -/
  allowed : ∀ a ∈ w.db.data.answers, a.command ∈ w.committed ∧
    ∃ r, w.db.inbox.find a.command = some r ∧ r.processedAt ≠ none ∧ r.outcome = some "ok" ∧
      c.Allowed r.event a
  /-- a command that was closed as done has its answer -/
  answered : ∀ id ∈ w.committed, ∀ r, w.db.inbox.find id = some r → c.IsCommand r.event →
    r.outcome = some "ok" → ∃ a ∈ w.db.data.answers, a.command = id

/-- The answers there are stay allowed: their commands are closed, and closed rows stay. -/
theorem AdminInv.allowed_later (h : AdminInv c w) (hinv : InboxInv opts w) (ht : w.Turn opts i w')
    (hcommitted : ∀ id ∈ w.committed, id ∈ w'.committed) : ∀ a ∈ w.db.data.answers,
      a.command ∈ w'.committed ∧ ∃ r, w'.db.inbox.find a.command = some r ∧ r.processedAt ≠ none ∧
        r.outcome = some "ok" ∧ c.Allowed r.event a := by
  intro a ha
  obtain ⟨hmem, r, hr, hclosed, hout, hallowed⟩ := h.allowed a ha
  obtain ⟨r', hr', hlasts⟩ := hinv.find_lasts ht hr
  obtain rfl := hlasts.closed hclosed
  exact ⟨hcommitted _ hmem, _, hr', hclosed, hout, hallowed⟩

/-- The commands that were closed keep their answers. -/
theorem AdminInv.answered_later (h : AdminInv c w) (hinv : InboxInv opts w) (ht : w.Turn opts i w') :
    ∀ id ∈ w.committed, ∀ r, w'.db.inbox.find id = some r → c.IsCommand r.event →
      r.outcome = some "ok" → ∃ a ∈ w.db.data.answers, a.command = id := by
  intro id hid r' hr' hcmd hout
  obtain ⟨r, result, hr, hclosed, -⟩ := hinv.handled id hid
  obtain ⟨r₁, hr₁, hlasts⟩ := hinv.find_lasts ht hr
  obtain rfl := hlasts.closed hclosed
  obtain rfl := Option.some.inj (hr'.symm.trans hr₁)
  exact h.answered id hid _ hr hcmd hout

/-- A step that commits no handler and leaves the answers keeps what is known. -/
theorem AdminInv.keep (h : AdminInv c w) (hinv : InboxInv opts w) (ht : w.Turn opts i w')
    (hcommitted : w'.committed = w.committed) (hanswers : w'.db.data.answers = w.db.data.answers) :
    AdminInv c w' where
  once := by
    rw [hanswers]
    exact h.once
  allowed := by
    rw [hanswers]
    exact h.allowed_later hinv ht (hcommitted ▸ fun _ hid => hid)
  answered := by
    rw [hcommitted, hanswers]
    exact h.answered_later hinv ht

/-- **Every step keeps the invariant.** -/
theorem AdminInv.step (h : AdminInv c w) (hinv : InboxInv opts w) (hok : c.Serves w i)
    (hs : InboxWorld.step opts w i = some w') : AdminInv c w' := by
  have ht := InboxWorld.turn hs
  have hlater := h.allowed_later hinv ht
  have hbefore := h.answered_later hinv ht
  cases ht with
  | keep inbox cursor committed acceptedAt data =>
    refine h.keep hinv (InboxWorld.turn hs) committed ?_
    rcases data with hdata | ⟨write, rfl⟩
    · rw [hdata]
    · obtain ⟨f, rfl⟩ := hok
      simp only [InboxWorld.step] at hs
      split at hs
      · cases hs
      · obtain rfl := Option.some.inj hs
        rfl
  | accepted idle hacc =>
    refine h.keep hinv (InboxWorld.turn hs) rfl ?_
    exact congrArg AdminDb.answers (accept_spec hacc).2.1
  | closed loop => exact h.keep hinv (InboxWorld.turn hs) rfl rfl
  | committed loop hroute hrun =>
    rename_i r handler e rest result data
    obtain ⟨clock, others, rfl⟩ := hok
    have hlater := hlater fun id hid => List.mem_append_left _ hid
    -- the event's own row was open, and is closed with the handler's result
    obtain ⟨r₀, hr₀, rfl, hopen⟩ := hinv.todo _ loop e List.mem_cons_self
    have hself : (closeEvent r₀.event.id result.outcome w.nowMs
        { w.db with data := data }).inbox.find r₀.event.id =
          some (r₀.close result.outcome w.nowMs) := by
      rw [find_closeEvent, if_pos rfl]
      show (w.db.inbox.find r₀.event.id).map _ = _
      rw [hr₀]
      rfl
    have hfree : r₀.event.id ∉ w.committed := by
      intro hmem
      obtain ⟨q, -, hq, hclosed, -⟩ := hinv.handled _ hmem
      obtain rfl := Option.some.inj (hr₀.symm.trans hq)
      exact hclosed hopen
    rcases route_cases hroute with ⟨hcmd, rfl⟩ | ⟨hcmd, hblind⟩
    · rcases adminHandler_ok hcmd hrun with
        ⟨hne, rfl⟩ | ⟨rfl, payload, answer, -, -, hanswers, hallowed⟩
      · refine ⟨h.once, hlater, fun id hid r hr hcmd' hout => ?_⟩
        rcases List.mem_append.mp hid with hid | hid
        · exact hbefore id hid r hr hcmd' hout
        · obtain rfl := List.mem_singleton.mp hid
          obtain rfl := Option.some.inj (hr.symm.trans hself)
          exact absurd (HandlerResult.eq_ok_of_outcome (Option.some.inj hout)) hne
      · have hnew : (AdminCtx.reply clock.replied r₀.event answer).command ∉
            w.db.data.answers.map AdminAnswer.command := by
          intro hmem
          obtain ⟨a, ha, he⟩ := List.mem_map.mp hmem
          have hcommitted := (h.allowed a ha).1
          rw [he] at hcommitted
          exact hfree hcommitted
        refine ⟨?_, fun a ha => ?_, fun id hid r hr hcmd' hout => ?_⟩
        · show (data.answers.map AdminAnswer.command).Nodup
          rw [hanswers, List.map_append]
          refine h.once.append (List.nodup_singleton _) ?_
          intro id hid hmem
          exact hnew (List.mem_singleton.mp hmem ▸ hid)
        · have ha : a ∈ data.answers := ha
          rw [hanswers] at ha
          rcases List.mem_append.mp ha with ha | ha
          · exact hlater a ha
          · obtain rfl := List.mem_singleton.mp ha
            refine ⟨List.mem_append_right _ (List.mem_singleton_self _), _, hself, ?_, rfl, hallowed⟩
            exact Option.some_ne_none w.nowMs
        · show ∃ a ∈ data.answers, a.command = id
          rw [hanswers]
          rcases List.mem_append.mp hid with hid | hid
          · obtain ⟨a, ha, he⟩ := hbefore id hid r hr hcmd' hout
            exact ⟨a, List.mem_append_left _ ha, he⟩
          · obtain rfl := List.mem_singleton.mp hid
            exact ⟨_, List.mem_append_right _ (List.mem_singleton_self _), rfl⟩
    · have hanswers : data.answers = w.db.data.answers := by
        have hsame := hblind w.db.data
        rwa [hrun] at hsame
      refine ⟨?_, fun a ha => hlater a (hanswers ▸ ha), fun id hid r hr hcmd' hout => ?_⟩
      · show (data.answers.map AdminAnswer.command).Nodup
        rw [hanswers]
        exact h.once
      · show ∃ a ∈ data.answers, a.command = id
        rw [hanswers]
        rcases List.mem_append.mp hid with hid | hid
        · exact hbefore id hid r hr hcmd' hout
        · obtain rfl := List.mem_singleton.mp hid
          obtain rfl := Option.some.inj (hr.symm.trans hself)
          exact absurd hcmd' hcmd

end Runs

/-! ### One command, delivered twice -/

end LnPay
