/-
# The chat on a user's device (`shared/src/chat-store.ts`, `shared/src/chat-send.ts`,
`shared/src/idb.ts`)

A message is shown as soon as it is signed, and its delivery is settled later.
The same message comes back from the relays, in any order and any number of
times, and again from the database when the page is opened; the page may be left
while all this is going on.

`transcript` is what some messages come to, and does not depend on the order in
which they arrived.  `ChatInv` is what holds of every page in every run: a message
is shown once, in the order of time, and its status is not a lie.
-/
import LnPay.HoldInvoice
import LnPay.TransitionSystem
import Mathlib.Data.List.Sort
import Mathlib.Logic.Function.Basic

namespace LnPay

/-! ## The store -/

/-- `ChatMessage.status`. -/
inductive SendStatus
  | pending
  | sent
  | failed
  deriving DecidableEq, Repr

/-- `ChatMessage`; what it says does not matter to the store. -/
structure ChatMessage where
  eventId : String
  orderId : OrderId
  createdAt : ℤ
  senderPubkey : Pubkey
  payload : String
  status : Option SendStatus
  deriving DecidableEq, Repr

/-- Sorted by time; messages of one moment stay as they were. -/
def sortByTime (messages : List ChatMessage) : List ChatMessage :=
  messages.insertionSort fun a b => a.createdAt ≤ b.createdAt

/-- `addMessage`, on the messages of an order. -/
def addToList (existing : List ChatMessage) (msg : ChatMessage) : List ChatMessage :=
  if existing.any fun m => m.eventId = msg.eventId then existing else sortByTime (existing ++ [msg])

/-- `setMessageStatus`, on the messages of an order. -/
def setStatus (eventId : String) (status : SendStatus) (existing : List ChatMessage) :
    List ChatMessage :=
  existing.map fun m => if m.eventId = eventId then { m with status := some status } else m

/-- What has been left pending has not been sent. -/
def ChatMessage.recovered (m : ChatMessage) : ChatMessage :=
  if m.status = some .pending then { m with status := some .failed } else m

/-- `loadFromIdb`, on the messages of an order. -/
def mergeStored (existing stored : List ChatMessage) : List ChatMessage :=
  sortByTime (existing ++
    (stored.filter fun m => !existing.any fun e => e.eventId = m.eventId).map ChatMessage.recovered)

/-! ## Transcripts -/

/-- What is shown once some messages have arrived on an empty page. -/
def transcript (arrivals : List ChatMessage) : List ChatMessage := arrivals.foldl addToList []

/-- A list as a page shows it: each message once, in the order of time. -/
structure Tidy (messages : List ChatMessage) : Prop where
  once : (messages.map ChatMessage.eventId).Nodup
  sorted : messages.Pairwise fun a b => a.createdAt ≤ b.createdAt

theorem perm_sortByTime (messages : List ChatMessage) : (sortByTime messages).Perm messages :=
  List.perm_insertionSort _ _

theorem pairwise_sortByTime (messages : List ChatMessage) :
    (sortByTime messages).Pairwise fun a b => a.createdAt ≤ b.createdAt := by
  have : Std.Total fun a b : ChatMessage => a.createdAt ≤ b.createdAt :=
    ⟨fun a b => le_total a.createdAt b.createdAt⟩
  have : IsTrans ChatMessage fun a b => a.createdAt ≤ b.createdAt := ⟨fun _ _ _ => le_trans⟩
  exact List.pairwise_insertionSort _ _

/-- Sorting tidies messages that are there once. -/
theorem tidy_sortByTime {messages : List ChatMessage}
    (h : (messages.map ChatMessage.eventId).Nodup) : Tidy (sortByTime messages) where
  once := ((perm_sortByTime messages).map ChatMessage.eventId).nodup_iff.mpr h
  sorted := pairwise_sortByTime messages

theorem Tidy.nil : Tidy [] := ⟨List.nodup_nil, List.Pairwise.nil⟩

theorem Tidy.addToList {existing : List ChatMessage} (h : Tidy existing) (msg : ChatMessage) :
    Tidy (addToList existing msg) := by
  unfold LnPay.addToList
  split
  · exact h
  · rename_i hnew
    refine tidy_sortByTime ?_
    rw [List.map_append, List.nodup_append]
    refine ⟨h.once, List.nodup_singleton _, ?_⟩
    rintro a ha b hb rfl
    obtain ⟨m, hm, hid⟩ := List.mem_map.mp ha
    obtain rfl := List.mem_singleton.mp hb
    exact hnew (List.any_eq_true.mpr ⟨m, hm, decide_eq_true hid⟩)

theorem Tidy.setStatus {existing : List ChatMessage} (h : Tidy existing) (eventId : String)
    (status : SendStatus) : Tidy (setStatus eventId status existing) := by
  have hid : ∀ m : ChatMessage,
      (if m.eventId = eventId then { m with status := some status } else m).eventId = m.eventId := by
    intro m
    split <;> rfl
  have htime : ∀ m : ChatMessage,
      (if m.eventId = eventId then { m with status := some status } else m).createdAt =
        m.createdAt := by
    intro m
    split <;> rfl
  constructor
  · have hmap : (LnPay.setStatus eventId status existing).map ChatMessage.eventId =
        existing.map ChatMessage.eventId := by
      rw [LnPay.setStatus, List.map_map]
      exact List.map_congr_left fun m _ => hid m
    rw [hmap]
    exact h.once
  · rw [LnPay.setStatus, List.pairwise_map]
    exact h.sorted.imp fun {a b} hab => by rw [htime, htime]; exact hab

theorem Tidy.filter {existing : List ChatMessage} (h : Tidy existing) (p : ChatMessage → Bool) :
    Tidy (existing.filter p) :=
  ⟨h.once.sublist (List.filter_sublist.map _), h.sorted.sublist List.filter_sublist⟩

theorem recovered_eventId (m : ChatMessage) : m.recovered.eventId = m.eventId := by
  unfold ChatMessage.recovered
  split <;> rfl

theorem Tidy.mergeStored {existing stored : List ChatMessage} (h : Tidy existing)
    (hs : (stored.map ChatMessage.eventId).Nodup) : Tidy (mergeStored existing stored) := by
  refine tidy_sortByTime ?_
  rw [List.map_append, List.nodup_append, List.map_map]
  have hcomp : ChatMessage.eventId ∘ ChatMessage.recovered = ChatMessage.eventId :=
    funext recovered_eventId
  rw [hcomp]
  refine ⟨h.once, hs.sublist (List.filter_sublist.map _), ?_⟩
  rintro a ha b hb rfl
  obtain ⟨m, hm, rfl⟩ := List.mem_map.mp hb
  obtain ⟨e, he, hid⟩ := List.mem_map.mp ha
  have hnot := (List.mem_filter.mp hm).2
  rw [Bool.not_eq_true', List.any_eq_false] at hnot
  exact hnot e he (decide_eq_true hid)

/-- What an arrival adds. -/
theorem mem_addToList {existing : List ChatMessage} {msg m : ChatMessage} :
    m ∈ addToList existing msg ↔
      m ∈ existing ∨ (m = msg ∧ ∀ e ∈ existing, e.eventId ≠ msg.eventId) := by
  unfold addToList
  split
  · rename_i hold
    obtain ⟨e, he, hid⟩ := List.any_eq_true.mp hold
    exact ⟨.inl, fun h => h.elim id fun h => absurd (of_decide_eq_true hid) (h.2 e he)⟩
  · rename_i hnew
    rw [(perm_sortByTime _).mem_iff, List.mem_append, List.mem_singleton]
    refine or_congr Iff.rfl ⟨fun h => ⟨h, fun e he hid => ?_⟩, And.left⟩
    exact hnew (List.any_eq_true.mpr ⟨e, he, decide_eq_true hid⟩)

theorem tidy_foldl (arrivals : List ChatMessage) {shown : List ChatMessage} (h : Tidy shown) :
    Tidy (arrivals.foldl addToList shown) := by
  induction arrivals generalizing shown with
  | nil => exact h
  | cons m rest ih => exact ih (h.addToList m)

/-- Everything that arrives is shown, once, where an event is always the same message. -/
theorem mem_foldl (arrivals shown : List ChatMessage)
    (hsame : ∀ a ∈ shown ++ arrivals, ∀ b ∈ shown ++ arrivals, a.eventId = b.eventId → a = b)
    (m : ChatMessage) : m ∈ arrivals.foldl addToList shown ↔ m ∈ shown ∨ m ∈ arrivals := by
  induction arrivals generalizing shown with
  | nil => simp
  | cons x rest ih =>
    have hsub : ∀ y ∈ addToList shown x ++ rest, y ∈ shown ++ x :: rest := by
      intro y hy
      obtain hy | hy := List.mem_append.mp hy
      · obtain hy | ⟨rfl, -⟩ := mem_addToList.mp hy
        · exact List.mem_append_left _ hy
        · simp
      · simp [hy]
    rw [List.foldl_cons, ih _ fun a ha b hb => hsame a (hsub a ha) b (hsub b hb)]
    rw [mem_addToList, List.mem_cons]
    constructor
    · rintro ((hm | ⟨rfl, -⟩) | hm)
      · exact .inl hm
      · exact .inr (.inl rfl)
      · exact .inr (.inr hm)
    · rintro (hm | rfl | hm)
      · exact .inl (.inl hm)
      · by_cases hold : ∃ e ∈ shown, e.eventId = m.eventId
        · obtain ⟨e, he, hid⟩ := hold
          obtain rfl := hsame e (by simp [he]) m (by simp) hid
          exact .inl (.inl he)
        · exact .inl (.inr ⟨rfl, fun e he hid => hold ⟨e, he, hid⟩⟩)
      · exact .inr hm

/-- **The order of arrival does not matter**: two devices that have received the same messages show
the same transcript, however often and in whatever order they came, up to the order of messages of
one moment; and where no two messages are of one moment, they show the same list. -/
theorem transcript_converges (arrivals arrivals' : List ChatMessage)
    (hsame : ∀ a ∈ arrivals, ∀ b ∈ arrivals, a.eventId = b.eventId → a = b)
    (hset : ∀ m, m ∈ arrivals ↔ m ∈ arrivals') :
    Tidy (transcript arrivals) ∧ (∀ m, m ∈ transcript arrivals ↔ m ∈ arrivals) ∧
      (transcript arrivals).Perm (transcript arrivals') ∧
      ((∀ a ∈ arrivals, ∀ b ∈ arrivals, a.createdAt = b.createdAt → a = b) →
        transcript arrivals = transcript arrivals') := by
  have hsame' : ∀ a ∈ arrivals', ∀ b ∈ arrivals', a.eventId = b.eventId → a = b :=
    fun a ha b hb => hsame a ((hset a).mpr ha) b ((hset b).mpr hb)
  have htidy : Tidy (transcript arrivals) := tidy_foldl arrivals .nil
  have htidy' : Tidy (transcript arrivals') := tidy_foldl arrivals' .nil
  have hmem : ∀ m, m ∈ transcript arrivals ↔ m ∈ arrivals := fun m =>
    (mem_foldl arrivals [] hsame m).trans (by simp)
  have hmem' : ∀ m, m ∈ transcript arrivals' ↔ m ∈ arrivals' := fun m =>
    (mem_foldl arrivals' [] hsame' m).trans (by simp)
  have hperm : (transcript arrivals).Perm (transcript arrivals') :=
    (List.perm_ext_iff_of_nodup htidy.once.of_map htidy'.once.of_map).mpr fun m =>
      (hmem m).trans ((hset m).trans (hmem' m).symm)
  refine ⟨htidy, hmem, hperm, fun htimes => ?_⟩
  have heq : ∀ a b, a ∈ transcript arrivals → b ∈ transcript arrivals' →
      a.createdAt ≤ b.createdAt → b.createdAt ≤ a.createdAt → a = b := fun a b ha hb hab hba =>
    htimes a ((hmem a).mp ha) b ((hset b).mpr ((hmem' b).mp hb)) (le_antisymm hab hba)
  exact hperm.eq_of_pairwise heq htidy.sorted htidy'.sorted

/-- Two messages of one order. -/
def sampleMessages : List ChatMessage :=
  [⟨"e1", "ord1", 10, "a", "hello", none⟩, ⟨"e2", "ord1", 20, "b", "hi", none⟩]

theorem transcript_converges_sample :
    transcript sampleMessages = transcript (sampleMessages.reverse ++ sampleMessages) :=
  (transcript_converges sampleMessages (sampleMessages.reverse ++ sampleMessages) (by decide)
    (fun m => by simp only [List.mem_append, List.mem_reverse, or_self])).2.2.2 (by decide)

/-! ## Pages, the database, and what is being sent -/

/-- The pages that are open, the database, the loads and the publications that are going on, the
failed messages that are being signed again, and how the publications have ended. -/
structure ChatWorld where
  chats : OrderId → Option (List ChatMessage) := fun _ => none
  idb : List ChatMessage := []
  loading : List (OrderId × List ChatMessage) := []
  publishing : List (OrderId × String) := []
  retrying : List ChatMessage := []
  outcomes : List (String × Bool) := []

namespace ChatWorld

/-- `idbUpsertMessage`, unless the database fails. -/
def idbUpsert (msg : ChatMessage) (fails : Bool) (w : ChatWorld) : ChatWorld :=
  if fails then w else { w with idb := w.idb.filter (fun m => m.eventId ≠ msg.eventId) ++ [msg] }

/-- `addMessage`. -/
def addMessage (msg : ChatMessage) (fails : Bool) (w : ChatWorld) : ChatWorld :=
  let existing := (w.chats msg.orderId).getD []
  if existing.any fun m => m.eventId = msg.eventId then w
  else { w with chats := Function.update w.chats msg.orderId (some (addToList existing msg)) }.idbUpsert
    msg fails

/-- `setMessageStatus`: nothing happens on a page that is not open. -/
def setMessageStatus (orderId : OrderId) (eventId : String) (status : SendStatus) (fails : Bool)
    (w : ChatWorld) : ChatWorld :=
  match w.chats orderId with
  | none => w
  | some existing =>
    match existing.find? fun m => m.eventId = eventId with
    | none => w
    | some m =>
      if m.status = some status then w
      else { w with
        chats := Function.update w.chats orderId (some (setStatus eventId status existing)) }.idbUpsert
          { m with status := some status } fails

/-- `removeMessage`. -/
def removeMessage (orderId : OrderId) (eventId : String) (fails : Bool) (w : ChatWorld) : ChatWorld :=
  match w.chats orderId with
  | none => w
  | some existing =>
    if existing.any fun m => m.eventId = eventId then
      { w with
        chats := Function.update w.chats orderId
          (some (existing.filter fun m => m.eventId ≠ eventId))
        idb := if fails then w.idb else w.idb.filter fun m => m.eventId ≠ eventId }
    else w

/-- `sendChatMessage`, once the message is signed. -/
def sendMessage (msg : ChatMessage) (fails : Bool) (w : ChatWorld) : ChatWorld :=
  let w := w.addMessage { msg with status := some .pending } fails
  { w with publishing := w.publishing ++ [(msg.orderId, msg.eventId)] }

/-- What happens on a device. -/
inductive Input
  | arrive (msg : ChatMessage) (fails : Bool)
  | send (msg : ChatMessage) (fails : Bool)
  | published (index : ℕ) (ok : Bool) (fails : Bool)
  | retry (old : ChatMessage) (fails : Bool)
  | resigned (index : ℕ) (signed : Option ChatMessage) (fails : Bool)
  | load (orderId : OrderId)
  | loaded (index : ℕ)
  | clear (orderId : OrderId)
  | restart

/-- The steps.  A message from a relay has no status.  `retryChatMessage` takes the message off at
once and waits for the signature; without one it puts the message back. -/
def step (w : ChatWorld) : Input → Option ChatWorld
  | .arrive msg fails => some (w.addMessage { msg with status := none } fails)
  | .send msg fails => some (w.sendMessage msg fails)
  | .published index ok fails =>
    (w.publishing[index]?).map fun p =>
      { w with
        publishing := w.publishing.eraseIdx index
        outcomes := (p.2, ok) :: w.outcomes }.setMessageStatus p.1 p.2 (if ok then .sent else .failed)
          fails
  | .retry old fails =>
    some { w.removeMessage old.orderId old.eventId fails with retrying := w.retrying ++ [old] }
  | .resigned index signed fails =>
    (w.retrying[index]?).map fun old =>
      let w := { w with retrying := w.retrying.eraseIdx index }
      match signed with
      | some msg => w.sendMessage msg fails
      | none => w.addMessage { old with status := some .failed } fails
  | .load orderId =>
    some { w with loading := w.loading ++
      [(orderId, sortByTime (w.idb.filter fun m => m.orderId = orderId))] }
  | .loaded index =>
    (w.loading[index]?).map fun l =>
      let existing := (w.chats l.1).getD []
      let w := { w with loading := w.loading.eraseIdx index }
      if l.2.all fun m => existing.any fun e => e.eventId = m.eventId then w
      else { w with chats := Function.update w.chats l.1 (some (mergeStored existing l.2)) }
  | .clear orderId => some { w with chats := Function.update w.chats orderId none }
  | .restart =>
    some { w with chats := fun _ => none, loading := [], publishing := [], retrying := [] }

/-- A message is of the order it is kept under, and has been sent when it says so. -/
structure Honest (outcomes : List (String × Bool)) (orderId : OrderId) (m : ChatMessage) : Prop where
  order : m.orderId = orderId
  sent : m.status = some .sent → (m.eventId, true) ∈ outcomes

/-- **The invariant of the pages and of what is kept for them.** -/
structure ChatInv (w : ChatWorld) : Prop where
  tidy : ∀ id messages, w.chats id = some messages → Tidy messages
  shown : ∀ id messages, w.chats id = some messages → ∀ m ∈ messages, Honest w.outcomes id m
  stored : (w.idb.map ChatMessage.eventId).Nodup
  kept : ∀ m ∈ w.idb, Honest w.outcomes m.orderId m
  loads : ∀ l ∈ w.loading, (l.2.map ChatMessage.eventId).Nodup ∧ ∀ m ∈ l.2, Honest w.outcomes l.1 m

variable {w w' : ChatWorld}

theorem Honest.mono {outcomes outcomes' : List (String × Bool)} {id : OrderId} {m : ChatMessage}
    (h : Honest outcomes id m) (hsub : ∀ o ∈ outcomes, o ∈ outcomes') : Honest outcomes' id m :=
  ⟨h.order, fun hs => hsub _ (h.sent hs)⟩

/-- A page is changed. -/
theorem ChatInv.update (h : w.ChatInv) (id : OrderId) {messages : List ChatMessage}
    (ht : Tidy messages) (hm : ∀ m ∈ messages, Honest w.outcomes id m) :
    ChatInv { w with chats := Function.update w.chats id (some messages) } := by
  refine ⟨fun id' ms hms => ?_, fun id' ms hms => ?_, h.stored, h.kept, h.loads⟩
  · by_cases hid : id' = id
    · subst hid
      obtain rfl : messages = ms := by simpa using hms
      exact ht
    · exact h.tidy id' ms (by simpa [hid] using hms)
  · by_cases hid : id' = id
    · subst hid
      obtain rfl : messages = ms := by simpa using hms
      exact hm
    · exact h.shown id' ms (by simpa [hid] using hms)

/-- A message is written to the database. -/
theorem ChatInv.idbUpsert (h : w.ChatInv) {msg : ChatMessage} (fails : Bool)
    (hm : Honest w.outcomes msg.orderId msg) : (w.idbUpsert msg fails).ChatInv := by
  unfold ChatWorld.idbUpsert
  split
  · exact h
  · refine ⟨h.tidy, h.shown, ?_, fun m hm' => ?_, h.loads⟩
    · rw [List.map_append, List.nodup_append]
      refine ⟨h.stored.sublist (List.filter_sublist.map _), List.nodup_singleton _, ?_⟩
      rintro a ha b hb rfl
      obtain ⟨m, hm', rfl⟩ := List.mem_map.mp ha
      obtain heq := List.mem_singleton.mp hb
      exact of_decide_eq_true (List.mem_filter.mp hm').2 heq
    · obtain hm' | hm' := List.mem_append.mp hm'
      · exact h.kept m (List.mem_filter.mp hm').1
      · obtain rfl := List.mem_singleton.mp hm'
        exact hm

theorem ChatInv.addMessage (h : w.ChatInv) (msg : ChatMessage) (fails : Bool)
    (hm : Honest w.outcomes msg.orderId msg) : (w.addMessage msg fails).ChatInv := by
  have hexisting : ∀ ms, w.chats msg.orderId = ms → Tidy (ms.getD []) ∧
      ∀ m ∈ ms.getD [], Honest w.outcomes msg.orderId m := by
    intro ms hms
    cases ms with
    | none => exact ⟨.nil, by simp⟩
    | some ms => exact ⟨h.tidy _ _ hms, h.shown _ _ hms⟩
  obtain ⟨ht, hs⟩ := hexisting _ rfl
  unfold ChatWorld.addMessage
  dsimp only
  split
  · exact h
  · refine (h.update _ (ht.addToList msg) fun m hm' => ?_).idbUpsert fails hm
    obtain hm' | ⟨rfl, -⟩ := mem_addToList.mp hm'
    · exact hs m hm'
    · exact hm

theorem ChatInv.setMessageStatus (h : w.ChatInv) {id : OrderId} {eventId : String}
    {status : SendStatus} (fails : Bool) (hsent : status = .sent → (eventId, true) ∈ w.outcomes) :
    (w.setMessageStatus id eventId status fails).ChatInv := by
  unfold ChatWorld.setMessageStatus
  split
  · exact h
  · rename_i existing hexisting
    split
    · exact h
    · rename_i m hfind
      have hm := h.shown id existing hexisting m (List.mem_of_find?_eq_some hfind)
      have hid : m.eventId = eventId := by simpa using List.find?_some hfind
      have hnew : ∀ x : ChatMessage, x.eventId = eventId → Honest w.outcomes id x →
          Honest w.outcomes id { x with status := some status } := fun x hx hh =>
        ⟨hh.order, fun hs => hx ▸ hsent (Option.some.inj hs)⟩
      split
      · exact h
      · refine (h.update _ ((h.tidy id existing hexisting).setStatus eventId status) ?_).idbUpsert fails ?_
        · intro x hx
          obtain ⟨y, hy, rfl⟩ := List.mem_map.mp hx
          have hy' := h.shown id existing hexisting y hy
          split
          · rename_i heq
            exact hnew y heq hy'
          · exact hy'
        · have hnew' := hnew m hid hm
          exact ⟨rfl, hnew'.sent⟩

theorem ChatInv.removeMessage (h : w.ChatInv) (id : OrderId) (eventId : String) (fails : Bool) :
    (w.removeMessage id eventId fails).ChatInv := by
  unfold ChatWorld.removeMessage
  split
  · exact h
  · rename_i existing hexisting
    split
    · have hup := h.update id ((h.tidy id existing hexisting).filter fun m => m.eventId ≠ eventId)
        fun m hm => h.shown id existing hexisting m (List.mem_filter.mp hm).1
      refine ⟨hup.tidy, hup.shown, ?_, fun m hm => ?_, hup.loads⟩
      · dsimp only
        split
        · exact h.stored
        · exact h.stored.sublist (List.filter_sublist.map _)
      · dsimp only at hm
        split at hm
        · exact h.kept m hm
        · exact h.kept m (List.mem_filter.mp hm).1
    · exact h

theorem ChatInv.sendMessage (h : w.ChatInv) (msg : ChatMessage) (fails : Bool) :
    (w.sendMessage msg fails).ChatInv := by
  have hadd := h.addMessage { msg with status := some .pending } fails
    ⟨rfl, fun hs => absurd (Option.some.inj hs) (by decide)⟩
  exact ⟨hadd.tidy, hadd.shown, hadd.stored, hadd.kept, hadd.loads⟩

theorem Honest.recovered {outcomes : List (String × Bool)} {id : OrderId} {m : ChatMessage}
    (h : Honest outcomes id m) : Honest outcomes id m.recovered := by
  unfold ChatMessage.recovered
  split
  · exact ⟨h.order, fun hs => absurd (Option.some.inj hs) (by decide)⟩
  · exact h

/-- A step keeps the invariant. -/
theorem ChatInv.step (h : w.ChatInv) {i : Input} (hs : w.step i = some w') : w'.ChatInv := by
  cases i with
  | arrive msg fails =>
    obtain rfl := Option.some.inj hs
    exact h.addMessage _ fails ⟨rfl, fun hs => absurd hs (by simp)⟩
  | send msg fails =>
    obtain rfl := Option.some.inj hs
    exact h.sendMessage msg fails
  | published index ok fails =>
    obtain ⟨p, -, rfl⟩ := Option.map_eq_some_iff.mp hs
    have hmore : ∀ o ∈ w.outcomes, o ∈ (p.2, ok) :: w.outcomes := fun o ho => List.mem_cons_of_mem _ ho
    have hnext : ChatInv { w with
        publishing := w.publishing.eraseIdx index
        outcomes := (p.2, ok) :: w.outcomes } :=
      ⟨h.tidy, fun id ms hms m hm => (h.shown id ms hms m hm).mono hmore, h.stored,
        fun m hm => (h.kept m hm).mono hmore,
        fun l hl => ⟨(h.loads l hl).1, fun m hm => ((h.loads l hl).2 m hm).mono hmore⟩⟩
    refine hnext.setMessageStatus fails fun hsent => ?_
    cases ok with
    | true => exact List.mem_cons_self
    | false => exact absurd hsent (by decide)
  | retry old fails =>
    obtain rfl := Option.some.inj hs
    have hremoved := h.removeMessage old.orderId old.eventId fails
    exact ⟨hremoved.tidy, hremoved.shown, hremoved.stored, hremoved.kept, hremoved.loads⟩
  | resigned index signed fails =>
    obtain ⟨old, -, rfl⟩ := Option.map_eq_some_iff.mp hs
    have hrest : ChatInv { w with retrying := w.retrying.eraseIdx index } :=
      ⟨h.tidy, h.shown, h.stored, h.kept, h.loads⟩
    cases signed with
    | some msg => exact hrest.sendMessage msg fails
    | none =>
      exact hrest.addMessage _ fails ⟨rfl, fun hs => absurd (Option.some.inj hs) (by decide)⟩
  | load id =>
    obtain rfl := Option.some.inj hs
    refine ⟨h.tidy, h.shown, h.stored, h.kept, fun l hl => ?_⟩
    obtain hl | hl := List.mem_append.mp hl
    · exact h.loads l hl
    · obtain rfl := List.mem_singleton.mp hl
      have hperm := perm_sortByTime (w.idb.filter fun m => m.orderId = id)
      refine ⟨(hperm.map _).nodup_iff.mpr (h.stored.sublist (List.filter_sublist.map _)),
        fun m hm => ?_⟩
      obtain ⟨hm, hid⟩ := List.mem_filter.mp (hperm.mem_iff.mp hm)
      have hhonest := h.kept m hm
      exact ⟨of_decide_eq_true hid, hhonest.sent⟩
  | loaded index =>
    obtain ⟨l, hl, rfl⟩ := Option.map_eq_some_iff.mp hs
    have hrest : ChatInv { w with loading := w.loading.eraseIdx index } :=
      ⟨h.tidy, h.shown, h.stored, h.kept, fun l' hl' => h.loads l' (List.mem_of_mem_eraseIdx hl')⟩
    obtain ⟨hnodup, hhonest⟩ := h.loads l (List.mem_of_getElem? hl)
    have hexisting : ∀ ms, w.chats l.1 = ms → Tidy (ms.getD []) ∧
        ∀ m ∈ ms.getD [], Honest w.outcomes l.1 m := by
      intro ms hms
      cases ms with
      | none => exact ⟨.nil, by simp⟩
      | some ms => exact ⟨h.tidy _ _ hms, h.shown _ _ hms⟩
    obtain ⟨ht, hsame⟩ := hexisting _ rfl
    dsimp only
    split
    · exact hrest
    · refine hrest.update _ (ht.mergeStored hnodup) fun m hm => ?_
      rw [mergeStored, (perm_sortByTime _).mem_iff, List.mem_append] at hm
      obtain hm | hm := hm
      · exact hsame m hm
      · obtain ⟨x, hx, rfl⟩ := List.mem_map.mp hm
        exact (hhonest x (List.mem_filter.mp hx).1).recovered
  | clear id =>
    obtain rfl := Option.some.inj hs
    have hold : ∀ id' ms, Function.update w.chats id none id' = some ms → w.chats id' = some ms := by
      intro id' ms hms
      by_cases hid : id' = id
      · simp [hid] at hms
      · simpa [hid] using hms
    exact ⟨fun id' ms hms => h.tidy id' ms (hold id' ms hms),
      fun id' ms hms => h.shown id' ms (hold id' ms hms), h.stored, h.kept, h.loads⟩
  | restart =>
    obtain rfl := Option.some.inj hs
    exact ⟨fun _ _ hms => absurd hms (by simp), fun _ _ hms => absurd hms (by simp), h.stored, h.kept,
      by simp⟩

end ChatWorld

/-- The system. -/
def chatSystem : TransitionSystem ChatWorld ChatWorld.Input where
  init w := w = {}
  step := ChatWorld.step

/-- **Every page in every run** shows each message once, in the order of time, only messages of its
order, and calls a message sent only when a relay has taken it. -/
theorem chat_pages_honest {w : ChatWorld} (hw : chatSystem.Reachable w) (id : OrderId)
    (messages : List ChatMessage) (hpage : w.chats id = some messages) :
    Tidy messages ∧ ∀ m ∈ messages, m.orderId = id ∧
      (m.status = some .sent → (m.eventId, true) ∈ w.outcomes) := by
  have h : w.ChatInv := by
    refine TransitionSystem.invariant (M := chatSystem) (P := ChatWorld.ChatInv) ?_
      (fun _ _ _ _ hinv hs => hinv.step hs) hw
    rintro _ rfl
    exact ⟨fun _ _ h => absurd h (by simp), fun _ _ h => absurd h (by simp), List.nodup_nil, by simp,
      by simp⟩
  exact ⟨h.tidy id messages hpage, fun m hm =>
    ⟨(h.shown id messages hpage m hm).order, (h.shown id messages hpage m hm).sent⟩⟩

/-- A message is sent, comes back from a relay, and is there when the page is opened again. -/
def sampleChat : List ChatWorld.Input :=
  [.send ⟨"e1", "ord1", 10, "a", "hello", none⟩ false,
    .arrive ⟨"e1", "ord1", 10, "a", "hello", none⟩ false,
    .published 0 true false, .clear "ord1", .load "ord1", .loaded 0]

theorem chat_pages_honest_sample : ∃ w messages, chatSystem.run {} sampleChat = some w ∧
    w.chats "ord1" = some messages ∧ messages.length = 1 ∧ Tidy messages := by
  have hrun : (chatSystem.run {} sampleChat).bind (fun w => (w.chats "ord1").map List.length) =
      some 1 := by
    decide +kernel
  obtain ⟨w, hw, hpage⟩ := Option.bind_eq_some_iff.mp hrun
  obtain ⟨messages, hm, hlen⟩ := Option.map_eq_some_iff.mp hpage
  have hreach : chatSystem.Reachable w := TransitionSystem.Reachable.run (.init rfl) hw
  exact ⟨w, messages, hw, hm, hlen, (chat_pages_honest hreach "ord1" messages hm).1⟩

end LnPay
