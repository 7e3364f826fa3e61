/-
# The operators' chat (`daemon/src/admin/chat.ts`, `peer-chat.ts`, `notify.ts`,
`daemon/src/orders/directory.ts`)

The daemon passes what the parties of an order write on to the operators, sends
what the operators answer, and rings phones.  What it must not do twice, or too
often, it remembers in the key-value table.

* `createChatForwarder`, `chatSend` and `createPeerPinger` are the three handlers,
* `desk` feeds them events, each in a transaction that is rolled back when a handler throws,
* `Move` is what they can do to the table and to what was sent, and `desk_moves` says so,
* the results on whole runs follow from `DeskKept`, which every move keeps.
-/
import LnPay.PeerChat
import LnPay.TransitionSystem

namespace LnPay

/-! ## The directory -/

/-- `OrderParties`. -/
structure OrderParties where
  version : ℤ
  customer : Pubkey
  sponsor : Option Pubkey

/-- A party of an order. -/
inductive OrderRole
  | customer
  | sponsor
  deriving DecidableEq

/-- `OrderDirectory.lookup`. -/
def OrderDirectory : Type := Track → OrderId → Option OrderParties

/-- `roleIn`. -/
def roleIn (parties : OrderParties) (pubkey : Pubkey) : Option OrderRole :=
  if pubkey = parties.customer then some .customer
  else if given parties.sponsor = some pubkey then some .sponsor
  else none

/-- The other party, when there is one. -/
def OrderParties.counterparty (parties : OrderParties) : OrderRole → Option Pubkey
  | .customer => given parties.sponsor
  | .sponsor => given (some parties.customer)

/-- The role of the other party. -/
def OrderRole.other : OrderRole → OrderRole
  | .customer => .sponsor
  | .sponsor => .customer

/-- The tab of a role: who sells asks, who buys fulfils. -/
def OrderRole.tab : OrderRole → Tab
  | .customer => .request
  | .sponsor => .fulfill

/-! ## What is sent -/

/-- A notice for a phone. -/
structure ChatNotice where
  body : String
  tab : Tab
  track : Track

/-- `NOTIFY.operatorMessage`. -/
def operatorMessage (tab : Tab) (track : Track) : ChatNotice :=
  ⟨"운영자가 메시지를 보냈습니다. 앱에서 확인해 주세요.", tab, track⟩

/-- `NOTIFY.operatorCalled`. -/
def operatorCalled (tab : Tab) (track : Track) : ChatNotice :=
  ⟨"상대방이 운영자를 불렀습니다. 이제 운영자가 두 분의 대화를 볼 수 있습니다.", tab, track⟩

/-- `NOTIFY.peerMessage`. -/
def peerMessage (tab : Tab) (track : Track) : ChatNotice :=
  ⟨"상대방이 메시지를 보냈습니다. 앱에서 확인해 주세요.", tab, track⟩

/-- Who wrote what is copied; `none` for the operators. -/
abbrev CopyRole := Option OrderRole

/-- `AdminChatCopy`. -/
structure ChatCopy where
  track : Track
  orderId : OrderId
  sender : Pubkey
  recipient : Pubkey
  role : CopyRole
  payload : ChatFields
  sentAt : ℤ
  originalId : String

/-- Something the daemon sent, or heard. -/
inductive Entry
  /-- a copy to each operator -/
  | copy (createdAt expiration : ℤ) (c : ChatCopy)
  /-- a direct message to each operator: a chat message came in, or a call -/
  | ring (sec : ℤ) (isCall : Bool) (track : Track) (orderId : OrderId) (text : String)
  /-- a message of the app to a party -/
  | message (createdAt : ℤ) (track : Track) (orderId : OrderId) (recipient : Pubkey)
      (payload : ChatPayload)
  /-- a chat message that rings nobody -/
  | unrung (sec : ℤ) (track : Track) (orderId : OrderId)
  /-- a push to a party -/
  | push (recipient : Pubkey) (notice : ChatNotice) (orderId : OrderId) (tag : String)
  /-- a message between the parties, and whether it rang the other one -/
  | heard (sec : ℤ) (rang : Bool) (track : Track) (orderId : OrderId)

/-! ## The table -/

/-- What a row of the table is for. -/
inductive KvUse
  | chatDm
  | disclosed
  | peerLast
  deriving DecidableEq

/-- The words the keys begin with. -/
def KvUse.text : KvUse → String
  | .chatDm => "chat.dm:"
  | .disclosed => "chat.disclosed:"
  | .peerLast => "peer.last:"

/-- The key of a row. -/
def kvKey (use : KvUse) (track : Track) (orderId : OrderId) : String :=
  use.text ++ track.text ++ ":" ++ orderId

/-- The rows; all of them are whole seconds. -/
def Kv : Type := String → Option ℤ

/-- `kvSet`. -/
def Kv.set (kv : Kv) (key : String) (value : ℤ) : Kv :=
  fun k => if k = key then some value else kv k

theorem kvKey_injective {use use' : KvUse} {track track' : Track} {orderId orderId' : OrderId}
    (h : kvKey use track orderId = kvKey use' track' orderId') :
    use = use' ∧ track = track' ∧ orderId = orderId' := by
  have hl := congrArg String.toList h
  cases use <;> cases use' <;> cases track <;> cases track' <;>
    simp [kvKey, KvUse.text, Track.text] at hl ⊢
  all_goals exact String.toList_inj.mp hl

@[simp] theorem Kv.set_key (kv : Kv) (use : KvUse) (track : Track) (orderId : OrderId) (value : ℤ)
    (use' : KvUse) (track' : Track) (orderId' : OrderId) :
    kv.set (kvKey use track orderId) value (kvKey use' track' orderId') =
      if use' = use ∧ track' = track ∧ orderId' = orderId then some value
      else kv (kvKey use' track' orderId') := by
  by_cases h : use' = use ∧ track' = track ∧ orderId' = orderId
  · obtain ⟨rfl, rfl, rfl⟩ := h
    simp only [Kv.set, and_self, if_true]
  · rw [Kv.set, if_neg fun hk => h (kvKey_injective hk), if_neg h]

/-! ## The handlers -/

/-- What the handlers know. -/
structure DeskCtx where
  appPubkey : Pubkey
  lnTag : String
  onchainTag : String
  operators : List Pubkey
  /-- whether a text can be sealed for a key -/
  canSeal : Pubkey → Bool

/-- The table, and what was sent. -/
structure Desk where
  kv : Kv
  log : List Entry

/-- Sends. -/
def Desk.send (d : Desk) (e : Entry) : Desk := { d with log := d.log ++ [e] }

/-- Writes a row. -/
def Desk.kvSet (d : Desk) (use : KvUse) (track : Track) (orderId : OrderId) (value : ℤ) : Desk :=
  { d with kv := d.kv.set (kvKey use track orderId) value }

/-- Reads a row. -/
def Desk.kvGet (d : Desk) (use : KvUse) (track : Track) (orderId : OrderId) : Option ℤ :=
  d.kv (kvKey use track orderId)

section Handlers

variable (ctx : DeskCtx)

/-- `trackOf`. -/
def trackOf (tags : List (List String)) : Option Track :=
  if tagValue tags "t" = some ctx.lnTag then some .ln
  else if tagValue tags "t" = some ctx.onchainTag then some .onchain
  else none

/-- `CHAT_COPY_RETENTION_SEC`. -/
def chatCopyRetentionSec : ℤ := 90 * 24 * 60 * 60

/-- `CHAT_DM_QUIET_SEC`. -/
def chatDmQuietSec : ℤ := 10 * 60

/-- `PEER_PUSH_QUIET_SEC`. -/
def peerPushQuietSec : ℤ := 5 * 60

/-- `TRACK_NAME`. -/
def trackName : Track → String
  | .ln => "라이트닝"
  | .onchain => "온체인"

/-- `ROLE_NAME`. -/
def OrderRole.name : OrderRole → String
  | .customer => "고객"
  | .sponsor => "후원자"

/-- The characters that fit in so many units.  A pair that is cut in two is left out here, and
leaves its first half in the source. -/
def utf16Take : ℕ → List Char → List Char
  | _, [] => []
  | n, c :: cs =>
    let units := if c.toNat < 0x10000 then 1 else 2
    if units ≤ n then c :: utf16Take (n - units) cs else []

/-- A text of at most `DM_PREVIEW_CHARS`. -/
def dmPreview (text : String) : String :=
  if 80 < utf16Length text then String.ofList (utf16Take 80 text.toList) ++ "…" else text

/-- A field that is a text, or nothing. -/
def JsonField.getText : JsonField → String
  | .text s => s
  | _ => ""

/-- Whether a field is a text. -/
def JsonField.isText : JsonField → Bool
  | .text _ => true
  | _ => false

/-- `isDisputePayload`. -/
def isDisputePayload (p : ChatFields) : Bool :=
  if p.type = .text "text" then p.content.isText
  else if p.type = .text "account-reveal" then p.accountInfo
  else if p.type = .text "call" then isCallPayload p
  else false

/-- `notifyOperators`; the message is sealed for each of them. -/
def notifyOperators (now : ℤ) (isCall : Bool) (track : Track) (orderId : OrderId) (text : String)
    (d : Desk) : Except String Desk :=
  if ctx.operators.all ctx.canSeal then
    .ok (d.send (.ring now isCall track orderId ("[페어바이] " ++ text)))
  else .error "bad operator key"

/-- `forwardToOperators`. -/
def forwardToOperators (now : ℤ) (c : ChatCopy) (d : Desk) : Except String Desk :=
  if ctx.operators.all ctx.canSeal then .ok (d.send (.copy now (now + chatCopyRetentionSec) c))
  else .error "bad operator key"

/-- `dmOperators`. -/
def dmOperators (now : ℤ) (track : Track) (orderId : OrderId) (role : OrderRole) (p : ChatFields)
    (d : Desk) : Except String Desk :=
  if now - (d.kvGet .chatDm track orderId).getD 0 < chatDmQuietSec then
    .ok (d.send (.unrung now track orderId))
  else
    let what := if p.type = .text "text" then "\"" ++ dmPreview p.content.getText ++ "\""
      else "계좌를 공개했습니다"
    notifyOperators ctx now false track orderId
      ("운영자 채팅 — " ++ trackName track ++ " " ++ role.name ++ ": " ++ what ++ " (" ++ orderId ++ ")")
      (d.kvSet .chatDm track orderId now)

/-- `callOperators`. -/
def callOperators (now : ℤ) (track : Track) (orderId : OrderId) (role : OrderRole) (p : ChatFields)
    (d : Desk) : Except String Desk :=
  let disclosed := if p.peerChatKey = .absent then "" else " · 상대방과의 대화 공개"
  (notifyOperators ctx now true track orderId
    ("운영자 호출 — " ++ trackName track ++ " " ++ role.name ++ ": \"" ++ dmPreview p.reason.getText ++
      "\"" ++ disclosed ++ " (" ++ orderId ++ ")") d).map
    fun d => d.kvSet .chatDm track orderId now

/-- `sendAsApp`, with the id of the event it signs. -/
def sendAsApp (now : ℤ) (eventId : String) (track : Track) (orderId : OrderId) (recipient : Pubkey)
    (role : OrderRole) (payload : ChatPayload) (push : Tab → Track → ChatNotice) (d : Desk) :
    Except String Desk :=
  if ctx.canSeal recipient then
    forwardToOperators ctx now
      ⟨track, orderId, ctx.appPubkey, recipient, none, payload.fields, now, eventId⟩
      ((d.send (.message now track orderId recipient payload)).send
        (.push recipient (push role.tab track) orderId ("chat:" ++ orderId)))
  else .error "bad key"

/-- `tellCounterparty`. -/
def tellCounterparty (now : ℤ) (eventId : String) (track : Track) (orderId : OrderId)
    (recipient : Pubkey) (toRole : OrderRole) (d : Desk) : Except String Desk :=
  if (d.kvGet .disclosed track orderId).isSome then .ok d
  else
    sendAsApp ctx now eventId track orderId recipient toRole .called operatorCalled
      (d.kvSet .disclosed track orderId now)

/-- What is done with a payload of a party. -/
def takePayload (now : ℤ) (eventId : String) (track : Track) (orderId : OrderId)
    (parties : OrderParties) (role : OrderRole) (event : InboxEvent ChatFields) (p : ChatFields)
    (d : Desk) : Except String Desk := do
  let d ← forwardToOperators ctx now
    ⟨track, orderId, event.pubkey, ctx.appPubkey, some role, p, event.createdAt, event.id⟩ d
  if p.type = .text "call" then
    let d ← callOperators ctx now track orderId role p d
    match parties.counterparty role with
    | some recipient =>
      if p.peerChatKey = .absent then return d
      else tellCounterparty ctx now eventId track orderId recipient role.other d
    | none => return d
  else dmOperators ctx now track orderId role p d

/-- `createChatForwarder`. -/
def createChatForwarder (now : ℤ) (directory : OrderDirectory) (eventId : String)
    (event : InboxEvent ChatFields) (d : Desk) : Except String (HandlerResult × Desk) :=
  match trackOf ctx event.tags with
  | none => .ok (.ignored "no-track", d)
  | some track =>
    match given (extractOrderId event.tags) with
    | none => .ok (.ignored "no-order", d)
    | some orderId =>
      match directory track orderId with
      | none => .ok (.ignored "unknown-order", d)
      | some parties =>
        match roleIn parties event.pubkey, event.content with
        | none, _ => .ok (.ignored "not-a-party", d)
        | _, .undecryptable => .ok (.ignored "undecryptable", d)
        | _, .badPayload => .ok (.ignored "bad-payload", d)
        | some role, .payload p =>
          if isDisputePayload p then
            (takePayload ctx now eventId track orderId parties role event p d).map fun d => (.ok, d)
          else .ok (.ignored "bad-payload", d)

/-- The arguments of `chat.send`, as far as they have the right types. -/
structure ChatSendArgs where
  track : Option Track
  orderId : Option OrderId
  recipient : Option Pubkey
  text : Option String

/-- `chatSend`: an error of the command is an answer, and sends nothing. -/
def chatSend (now : ℤ) (directory : OrderDirectory) (eventId : String) (args : ChatSendArgs)
    (d : Desk) : Except String (Except String String × Desk) :=
  match args.track, args.orderId, args.recipient with
  | some track, some orderId, some recipient =>
    match args.text with
    | none => .ok (.error "empty-text", d)
    | some text =>
      if jsTrim text = "" then .ok (.error "empty-text", d)
      else if maxChatText < utf16Length text then .ok (.error "too-long", d)
      else
        match directory track orderId with
        | none => .ok (.error "unknown-order", d)
        | some parties =>
          match roleIn parties recipient with
          | none => .ok (.error "not-a-party", d)
          | some role =>
            (sendAsApp ctx now eventId track orderId recipient role (.text text) operatorMessage d).map
              fun d => (.ok eventId, d)
  | _, _, _ => .ok (.error "bad-args", d)

/-- `createPeerPinger`. -/
def createPeerPinger (now : ℤ) (directory : OrderDirectory) (event : InboxEvent ChatFields)
    (d : Desk) : HandlerResult × Desk :=
  match trackOf ctx event.tags with
  | none => (.ignored "no-track", d)
  | some track =>
    match given (extractOrderId event.tags) with
    | none => (.ignored "no-order", d)
    | some orderId =>
      match directory track orderId with
      | none => (.ignored "unknown-order", d)
      | some parties =>
        match roleIn parties event.pubkey with
        | none => (.ignored "not-a-party", d)
        | some role =>
          match parties.counterparty role with
          | none => (.ignored "no-counterparty", d)
          | some recipient =>
            let quiet := (d.kvGet .peerLast track orderId).any fun last =>
              decide (now - last < peerPushQuietSec)
            let d := (d.kvSet .peerLast track orderId now).send (.heard now (!quiet) track orderId)
            if quiet then (.ok, d)
            else
              (.ok, d.send
                (.push recipient (peerMessage role.other.tab track) orderId ("peer:" ++ orderId)))

end Handlers

/-! ## Runs -/

/-- Something that comes in, at a time and with the orders as they are then. -/
inductive DeskInput
  | user (now : ℤ) (directory : OrderDirectory) (eventId : String) (event : InboxEvent ChatFields)
  | operator (now : ℤ) (directory : OrderDirectory) (eventId : String) (args : ChatSendArgs)
  | peer (now : ℤ) (directory : OrderDirectory) (event : InboxEvent ChatFields)

/-- One input, in its transaction. -/
def deskStep (ctx : DeskCtx) (d : Desk) : DeskInput → Desk
  | .user now directory eventId event =>
    match createChatForwarder ctx now directory eventId event d with
    | .ok (_, d') => d'
    | .error _ => d
  | .operator now directory eventId args =>
    match chatSend ctx now directory eventId args d with
    | .ok (_, d') => d'
    | .error _ => d
  | .peer now directory event => (createPeerPinger ctx now directory event d).2

/-- The desk: nothing is remembered and nothing was sent, and inputs come in. -/
def desk (ctx : DeskCtx) : TransitionSystem Desk DeskInput where
  init d := d = ⟨fun _ => none, []⟩
  step d i := some (deskStep ctx d i)

/-! ## What one input can do -/

/-- Entries that nothing is remembered for. -/
def Entry.Plain : Entry → Prop
  | .copy .. => True
  | .push .. => True
  | .message _ _ _ _ payload => payload ≠ .called
  | _ => False

/-- The moves of the handlers. -/
inductive Move : Desk → Desk → Prop
  | plain {d : Desk} {e : Entry} : e.Plain → Move d (d.send e)
  | call {d : Desk} (now : ℤ) (track : Track) (orderId : OrderId) (text : String) :
      Move d ((d.send (.ring now true track orderId text)).kvSet .chatDm track orderId now)
  | chat {d : Desk} {now : ℤ} {track : Track} {orderId : OrderId} (text : String) :
      ¬ now - (d.kvGet .chatDm track orderId).getD 0 < chatDmQuietSec →
      Move d ((d.kvSet .chatDm track orderId now).send (.ring now false track orderId text))
  | unrung {d : Desk} {now : ℤ} {track : Track} {orderId : OrderId} :
      now - (d.kvGet .chatDm track orderId).getD 0 < chatDmQuietSec →
      Move d (d.send (.unrung now track orderId))
  | tell {d : Desk} {now : ℤ} {track : Track} {orderId : OrderId} (recipient : Pubkey) :
      d.kvGet .disclosed track orderId = none →
      Move d ((d.kvSet .disclosed track orderId now).send
        (.message now track orderId recipient .called))
  | hear {d : Desk} (now : ℤ) (track : Track) (orderId : OrderId) :
      Move d ((d.kvSet .peerLast track orderId now).send
        (.heard now (!(d.kvGet .peerLast track orderId).any fun last =>
          decide (now - last < peerPushQuietSec)) track orderId))

/-- Any number of moves. -/
abbrev Moves : Desk → Desk → Prop := Relation.ReflTransGen Move

section Moves

variable {ctx : DeskCtx} {now : ℤ} {track : Track} {orderId : OrderId} {d d' : Desk}

theorem move_copy (createdAt expiration : ℤ) (c : ChatCopy) :
    Move d (d.send (.copy createdAt expiration c)) := .plain trivial

theorem move_push (recipient : Pubkey) (notice : ChatNotice) (tag : String) :
    Move d (d.send (.push recipient notice orderId tag)) := .plain trivial

theorem forwardToOperators_eq {c : ChatCopy} (h : forwardToOperators ctx now c d = .ok d') :
    d' = d.send (.copy now (now + chatCopyRetentionSec) c) := by
  unfold forwardToOperators at h
  split at h
  · cases h
    rfl
  · cases h

/-- A call rings. -/
theorem callOperators_eq {role : OrderRole} {p : ChatFields}
    (h : callOperators ctx now track orderId role p d = .ok d') :
    ∃ text, d' = (d.send (.ring now true track orderId text)).kvSet .chatDm track orderId now := by
  obtain ⟨d₁, hring, rfl⟩ := Except.map_eq_ok_iff.mp h
  unfold notifyOperators at hring
  split at hring
  · cases hring
    exact ⟨_, rfl⟩
  · cases hring

/-- A chat message rings unless it is quiet. -/
theorem dmOperators_cases {role : OrderRole} {p : ChatFields}
    (h : dmOperators ctx now track orderId role p d = .ok d') :
    (now - (d.kvGet .chatDm track orderId).getD 0 < chatDmQuietSec ∧
        d' = d.send (.unrung now track orderId)) ∨
      (¬ now - (d.kvGet .chatDm track orderId).getD 0 < chatDmQuietSec ∧
        ∃ text, d' = (d.kvSet .chatDm track orderId now).send
          (.ring now false track orderId text)) := by
  unfold dmOperators at h
  split at h
  next hquiet =>
    cases h
    exact .inl ⟨hquiet, rfl⟩
  next hquiet =>
    unfold notifyOperators at h
    dsimp only at h
    split at h
    · cases h
      exact .inr ⟨hquiet, _, rfl⟩
    · cases h

/-- After its message, `sendAsApp` pushes and copies. -/
theorem sendAsApp_eq {eventId : String} {recipient : Pubkey} {role : OrderRole}
    {payload : ChatPayload} {push : Tab → Track → ChatNotice}
    (h : sendAsApp ctx now eventId track orderId recipient role payload push d = .ok d') :
    ∃ c, d' = ((d.send (.message now track orderId recipient payload)).send
      (.push recipient (push role.tab track) orderId ("chat:" ++ orderId))).send
      (.copy now (now + chatCopyRetentionSec) c) := by
  unfold sendAsApp at h
  split at h
  · exact ⟨_, forwardToOperators_eq h⟩
  · cases h

theorem sendAsApp_moves {eventId : String} {recipient : Pubkey} {role : OrderRole}
    {payload : ChatPayload} {push : Tab → Track → ChatNotice}
    (h : sendAsApp ctx now eventId track orderId recipient role payload push d = .ok d') :
    Moves (d.send (.message now track orderId recipient payload)) d' := by
  obtain ⟨c, rfl⟩ := sendAsApp_eq h
  exact .head (move_push _ _ _) (.single (move_copy _ _ _))

theorem tellCounterparty_moves {eventId : String} {recipient : Pubkey} {role : OrderRole}
    (h : tellCounterparty ctx now eventId track orderId recipient role d = .ok d') :
    Moves d d' := by
  unfold tellCounterparty at h
  split at h
  · cases h
    exact .refl
  next hnew =>
    exact .head (.tell recipient (Option.not_isSome_iff_eq_none.mp hnew)) (sendAsApp_moves h)

/-- The parts of `takePayload`. -/
theorem takePayload_cases {eventId : String} {parties : OrderParties} {role : OrderRole}
    {event : InboxEvent ChatFields} {p : ChatFields}
    (h : takePayload ctx now eventId track orderId parties role event p d = .ok d') :
    ∃ d₁, d₁ = d.send (.copy now (now + chatCopyRetentionSec)
        ⟨track, orderId, event.pubkey, ctx.appPubkey, some role, p, event.createdAt, event.id⟩) ∧
      ((p.type = .text "call" ∧ ∃ d₂, callOperators ctx now track orderId role p d₁ = .ok d₂ ∧
          ((∃ recipient, parties.counterparty role = some recipient ∧ p.peerChatKey ≠ .absent ∧
              tellCounterparty ctx now eventId track orderId recipient role.other d₂ = .ok d') ∨
            ((parties.counterparty role = none ∨ p.peerChatKey = .absent) ∧ d' = d₂))) ∨
        (p.type ≠ .text "call" ∧ dmOperators ctx now track orderId role p d₁ = .ok d')) := by
  unfold takePayload at h
  cases hcopy : forwardToOperators ctx now
      ⟨track, orderId, event.pubkey, ctx.appPubkey, some role, p, event.createdAt, event.id⟩ d with
  | error err =>
    rw [hcopy] at h
    cases h
  | ok d₁ =>
    rw [hcopy] at h
    refine ⟨d₁, forwardToOperators_eq hcopy, ?_⟩
    change (if p.type = .text "call" then _ else _) = _ at h
    split at h
    next hcall =>
      refine .inl ⟨hcall, ?_⟩
      cases hring : callOperators ctx now track orderId role p d₁ with
      | error err =>
        rw [hring] at h
        cases h
      | ok d₂ =>
        rw [hring] at h
        refine ⟨d₂, rfl, ?_⟩
        cases hto : parties.counterparty role with
        | none =>
          rw [hto] at h
          cases h
          exact .inr ⟨.inl rfl, rfl⟩
        | some recipient =>
          rw [hto] at h
          change (if p.peerChatKey = .absent then _ else _) = _ at h
          split at h
          next hkey =>
            cases h
            exact .inr ⟨.inr hkey, rfl⟩
          next hkey => exact .inl ⟨recipient, rfl, hkey, h⟩
    next hcall => exact .inr ⟨hcall, h⟩

theorem takePayload_moves {eventId : String} {parties : OrderParties} {role : OrderRole}
    {event : InboxEvent ChatFields} {p : ChatFields}
    (h : takePayload ctx now eventId track orderId parties role event p d = .ok d') :
    Moves d d' := by
  obtain ⟨d₁, hd₁, hparts⟩ := takePayload_cases h
  have hcopy : Move d d₁ := hd₁ ▸ move_copy _ _ _
  refine .head hcopy ?_
  obtain ⟨-, d₂, hcall, hrest⟩ | ⟨-, hdm⟩ := hparts
  · obtain ⟨text, rfl⟩ := callOperators_eq hcall
    refine .head (.call now track orderId text) ?_
    obtain ⟨recipient, -, -, htell⟩ | ⟨-, rfl⟩ := hrest
    · exact tellCounterparty_moves htell
    · exact .refl
  · obtain ⟨hquiet, rfl⟩ | ⟨hquiet, text, rfl⟩ := dmOperators_cases hdm
    · exact .single (.unrung hquiet)
    · exact .single (.chat text hquiet)

/-- What a request that is taken comes down to. -/
theorem createChatForwarder_ok {directory : OrderDirectory} {eventId : String}
    {event : InboxEvent ChatFields}
    (h : createChatForwarder ctx now directory eventId event d = .ok (.ok, d')) :
    ∃ track orderId parties role p, trackOf ctx event.tags = some track ∧
      given (extractOrderId event.tags) = some orderId ∧ directory track orderId = some parties ∧
      roleIn parties event.pubkey = some role ∧ event.content = .payload p ∧
      takePayload ctx now eventId track orderId parties role event p d = .ok d' := by
  unfold createChatForwarder at h
  split at h
  · cases h
  next track htrack =>
  split at h
  · cases h
  next orderId horder =>
  split at h
  · cases h
  next parties hparties =>
  split at h
  · cases h
  · cases h
  · cases h
  next role p hrole hcontent =>
  split at h
  · obtain ⟨d₁, htake, heq⟩ := Except.map_eq_ok_iff.mp h
    cases heq
    exact ⟨track, orderId, parties, role, p, htrack, horder, hparties, hrole, hcontent, htake⟩
  · cases h

theorem createChatForwarder_moves {directory : OrderDirectory} {eventId : String}
    {event : InboxEvent ChatFields} {r : HandlerResult}
    (h : createChatForwarder ctx now directory eventId event d = .ok (r, d')) : Moves d d' := by
  unfold createChatForwarder at h
  split at h
  · cases h
    exact .refl
  split at h
  · cases h
    exact .refl
  split at h
  · cases h
    exact .refl
  split at h
  · cases h
    exact .refl
  · cases h
    exact .refl
  · cases h
    exact .refl
  split at h
  · obtain ⟨d₁, htake, heq⟩ := Except.map_eq_ok_iff.mp h
    cases heq
    exact takePayload_moves htake
  · cases h
    exact .refl

theorem chatSend_moves {directory : OrderDirectory} {eventId : String} {args : ChatSendArgs}
    {r : Except String String}
    (h : chatSend ctx now directory eventId args d = .ok (r, d')) : Moves d d' := by
  unfold chatSend at h
  split at h
  · split at h
    · cases h
      exact .refl
    split at h
    · cases h
      exact .refl
    split at h
    · cases h
      exact .refl
    split at h
    · cases h
      exact .refl
    split at h
    · cases h
      exact .refl
    obtain ⟨d₁, hsend, heq⟩ := Except.map_eq_ok_iff.mp h
    cases heq
    refine .head (.plain ?_) (sendAsApp_moves hsend)
    exact ChatPayload.noConfusion
  · cases h
    exact .refl

theorem createPeerPinger_moves {directory : OrderDirectory} {event : InboxEvent ChatFields} :
    Moves d (createPeerPinger ctx now directory event d).2 := by
  unfold createPeerPinger
  split
  · exact .refl
  split
  · exact .refl
  split
  · exact .refl
  split
  · exact .refl
  split
  · exact .refl
  · dsimp only
    split
    · exact .single (.hear now _ _)
    · refine .head (.hear now _ _) (.single (.plain ?_))
      trivial

/-- An input makes some moves, or none. -/
theorem desk_moves (ctx : DeskCtx) (d : Desk) (i : DeskInput) : Moves d (deskStep ctx d i) := by
  cases i with
  | user now directory eventId event =>
    simp only [deskStep]
    split
    next h => exact createChatForwarder_moves h
    · exact .refl
  | operator now directory eventId args =>
    simp only [deskStep]
    split
    next h => exact chatSend_moves h
    · exact .refl
  | peer now directory event => exact createPeerPinger_moves

end Moves

/-! ## What is remembered -/

/-- Every entry of a list stands in a relation to those before it. -/
def EachAfter {α : Type} (P : List α → α → Prop) (l : List α) : Prop :=
  ∀ before a rest, l = before ++ a :: rest → P before a

theorem EachAfter.nil {α : Type} (P : List α → α → Prop) : EachAfter P [] := by
  intro before a rest h
  simp at h

theorem EachAfter.concat {α : Type} {P : List α → α → Prop} {l : List α} {a : α}
    (h : EachAfter P l) (ha : P l a) : EachAfter P (l ++ [a]) := by
  intro before b rest hl
  rcases List.eq_nil_or_concat rest with rfl | ⟨rest, c, rfl⟩
  · obtain ⟨rfl, hb⟩ := List.append_inj' hl rfl
    cases hb
    exact ha
  · rw [List.concat_eq_append, ← List.cons_append, ← List.append_assoc] at hl
    obtain ⟨rfl, -⟩ := List.append_inj' hl rfl
    exact h before b rest rfl

/-- The time at which an entry rings the operators for an order. -/
def Entry.ringAt (track : Track) (orderId : OrderId) : Entry → Option ℤ
  | .ring sec _ t id _ => if t = track ∧ id = orderId then some sec else none
  | _ => none

/-- The time at which an entry hears the parties of an order. -/
def Entry.heardAt (track : Track) (orderId : OrderId) : Entry → Option ℤ
  | .heard sec _ t id => if t = track ∧ id = orderId then some sec else none
  | _ => none

/-- Whether an entry tells a party of an order that the operators read along. -/
def Entry.tells (track : Track) (orderId : OrderId) : Entry → Bool
  | .message _ t id _ .called => t = track && id = orderId
  | _ => false

/-- When the operators were last rung for an order. -/
def lastRing (track : Track) (orderId : OrderId) (log : List Entry) : Option ℤ :=
  (log.filterMap (Entry.ringAt track orderId)).getLast?

/-- When the parties of an order were last heard. -/
def lastHeard (track : Track) (orderId : OrderId) (log : List Entry) : Option ℤ :=
  (log.filterMap (Entry.heardAt track orderId)).getLast?

/-- Whether a chat message comes within the quiet time of the last ring. -/
def ChatQuiet (before : List Entry) (sec : ℤ) (track : Track) (orderId : OrderId) : Prop :=
  sec - (lastRing track orderId before).getD 0 < chatDmQuietSec

/-- Whether a message of the parties comes within the quiet time of their last one. -/
def PeerQuiet (before : List Entry) (sec : ℤ) (track : Track) (orderId : OrderId) : Prop :=
  ∃ last, lastHeard track orderId before = some last ∧ sec - last < peerPushQuietSec

/-- What an entry says of those before it: a chat message rings the operators unless it is quiet, and
a message of the parties rings the other one unless it is quiet. -/
def Entry.Right (before : List Entry) : Entry → Prop
  | .ring sec isCall track orderId _ => isCall = false → ¬ ChatQuiet before sec track orderId
  | .unrung sec track orderId => ChatQuiet before sec track orderId
  | .heard sec rang track orderId => rang = true ↔ ¬ PeerQuiet before sec track orderId
  | _ => True

/-- The table says what happened, and what was done is right. -/
structure DeskKept (d : Desk) : Prop where
  chatDm : ∀ track orderId, d.kvGet .chatDm track orderId = lastRing track orderId d.log
  peerLast : ∀ track orderId, d.kvGet .peerLast track orderId = lastHeard track orderId d.log
  disclosed : ∀ track orderId, d.log.countP (Entry.tells track orderId) =
    (d.kvGet .disclosed track orderId).toList.length
  right : EachAfter Entry.Right d.log

/-! ### One move -/

@[simp] theorem Desk.kvGet_send (d : Desk) (e : Entry) (use : KvUse) (track : Track)
    (orderId : OrderId) : (d.send e).kvGet use track orderId = d.kvGet use track orderId := rfl

@[simp] theorem Desk.log_send (d : Desk) (e : Entry) : (d.send e).log = d.log ++ [e] := rfl

@[simp] theorem Desk.log_kvSet (d : Desk) (use : KvUse) (track : Track) (orderId : OrderId)
    (value : ℤ) : (d.kvSet use track orderId value).log = d.log := rfl

@[simp] theorem Desk.kvGet_kvSet (d : Desk) (use : KvUse) (track : Track) (orderId : OrderId)
    (value : ℤ) (use' : KvUse) (track' : Track) (orderId' : OrderId) :
    (d.kvSet use track orderId value).kvGet use' track' orderId' =
      if use' = use ∧ track' = track ∧ orderId' = orderId then some value
      else d.kvGet use' track' orderId' :=
  Kv.set_key d.kv use track orderId value use' track' orderId'

@[simp] theorem lastRing_concat (track : Track) (orderId : OrderId) (log : List Entry) (e : Entry) :
    lastRing track orderId (log ++ [e]) =
      ((e.ringAt track orderId).or (lastRing track orderId log)) := by
  cases h : e.ringAt track orderId with
  | none => simp [lastRing, h]
  | some sec => simp [lastRing, h]

@[simp] theorem lastHeard_concat (track : Track) (orderId : OrderId) (log : List Entry)
    (e : Entry) : lastHeard track orderId (log ++ [e]) =
      ((e.heardAt track orderId).or (lastHeard track orderId log)) := by
  cases h : e.heardAt track orderId with
  | none => simp [lastHeard, h]
  | some sec => simp [lastHeard, h]

/-- What an entry of one order adds to what is looked up for another. -/
theorem ite_or_eq (now : ℤ) (track t : Track) (orderId id : OrderId) (last : Option ℤ) :
    (if track = t ∧ orderId = id then some now else none).or last =
      if t = track ∧ id = orderId then some now else last := by
  by_cases h : t = track ∧ id = orderId
  · simp [h]
  · have h' : ¬ (track = t ∧ orderId = id) := fun hn => h ⟨hn.1.symm, hn.2.symm⟩
    simp [h, h']

/-- Every move keeps it. -/
theorem DeskKept.move {d d' : Desk} (hk : DeskKept d) (h : Move d d') : DeskKept d' := by
  cases h with
  | @plain e he =>
    have hring : ∀ track orderId, e.ringAt track orderId = none := by
      cases e <;> simp_all [Entry.Plain, Entry.ringAt]
    have hheard : ∀ track orderId, e.heardAt track orderId = none := by
      cases e <;> simp_all [Entry.Plain, Entry.heardAt]
    have htell : ∀ track orderId, e.tells track orderId = false := by
      intro track orderId
      cases e with
      | message sec t id recipient payload =>
        cases payload <;> simp_all [Entry.Plain, Entry.tells]
      | _ => rfl
    have hright : e.Right d.log := by
      cases e <;> simp_all [Entry.Plain, Entry.Right]
    refine ⟨fun track orderId => ?_, fun track orderId => ?_, fun track orderId => ?_,
      hk.right.concat hright⟩
    · simp [hring, hk.chatDm]
    · simp [hheard, hk.peerLast]
    · simp [htell, hk.disclosed]
  | call now track orderId text =>
    refine ⟨fun t id => ?_, fun t id => ?_, fun t id => ?_, hk.right.concat fun h => by cases h⟩
    · simp [Entry.ringAt, ite_or_eq, hk.chatDm]
    · simp [Entry.heardAt, hk.peerLast]
    · simp [Entry.tells, hk.disclosed]
  | @chat now track orderId text hquiet =>
    have hright : Entry.Right d.log (.ring now false track orderId text) := by
      rw [hk.chatDm] at hquiet
      exact fun _ => hquiet
    refine ⟨fun t id => ?_, fun t id => ?_, fun t id => ?_, hk.right.concat hright⟩
    · simp [Entry.ringAt, ite_or_eq, hk.chatDm]
    · simp [Entry.heardAt, hk.peerLast]
    · simp [Entry.tells, hk.disclosed]
  | @unrung now track orderId hquiet =>
    have hright : Entry.Right d.log (.unrung now track orderId) := by
      rw [hk.chatDm] at hquiet
      exact hquiet
    refine ⟨fun t id => ?_, fun t id => ?_, fun t id => ?_, hk.right.concat hright⟩
    · simp [Entry.ringAt, hk.chatDm]
    · simp [Entry.heardAt, hk.peerLast]
    · simp [Entry.tells, hk.disclosed]
  | @tell now track orderId recipient hnew =>
    refine ⟨fun t id => ?_, fun t id => ?_, fun t id => ?_, hk.right.concat trivial⟩
    · simp [Entry.ringAt, hk.chatDm]
    · simp [Entry.heardAt, hk.peerLast]
    · by_cases ht : t = track ∧ id = orderId
      · simp [Entry.tells, ht, hk.disclosed, hnew]
      · have ht' : ¬ (track = t ∧ orderId = id) := fun h => ht ⟨h.1.symm, h.2.symm⟩
        simp [Entry.tells, ht, ht', hk.disclosed]
  | hear now track orderId =>
    have hright : Entry.Right d.log (.heard now
        (!(d.kvGet .peerLast track orderId).any fun last =>
          decide (now - last < peerPushQuietSec)) track orderId) := by
      rw [Entry.Right, PeerQuiet, hk.peerLast]
      cases lastHeard track orderId d.log with
      | none => simp
      | some last => simp
    refine ⟨fun t id => ?_, fun t id => ?_, fun t id => ?_, hk.right.concat hright⟩
    · simp [Entry.ringAt, hk.chatDm]
    · simp [Entry.heardAt, ite_or_eq, hk.peerLast]
    · simp [Entry.tells, hk.disclosed]

theorem DeskKept.moves {d d' : Desk} (hk : DeskKept d) (h : Moves d d') : DeskKept d' := by
  induction h with
  | refl => exact hk
  | tail _ hmove ih => exact ih.move hmove

/-- It holds in every run. -/
theorem kept_of_reachable {ctx : DeskCtx} {d : Desk} (hd : (desk ctx).Reachable d) : DeskKept d := by
  refine TransitionSystem.invariant (P := DeskKept) ?_ ?_ hd
  · rintro d rfl
    exact ⟨fun _ _ => rfl, fun _ _ => rfl, fun _ _ => rfl, EachAfter.nil _⟩
  · intro d i d' _ hk hstep
    cases hstep
    exact hk.moves (desk_moves ctx d i)

/-! ### Results -/

/-- A desk with one operator. -/
def sampleDeskCtx : DeskCtx := ⟨"app", "ln", "oc", ["operator"], fun _ => true⟩

/-- A customer's key. -/
def sampleParty : Pubkey := String.ofList (List.replicate 64 'a')

theorem isHex64_sampleParty : isHex64 sampleParty = true := by
  decide +kernel

/-- A customer's call, with the key of the chat. -/
def sampleCall : InboxEvent ChatFields where
  id := "call"
  pubkey := sampleParty
  isHex64_pubkey := isHex64_sampleParty
  createdAt := 1000
  tags := [["t", "ln"], ["a", "38383:app:abcd"]]
  content := .payload (ChatPayload.call "help" (some sampleParty)).fields

/-- The desk after that call. -/
def sampleDesk : Desk :=
  deskStep sampleDeskCtx ⟨fun _ => none, []⟩
    (.user 1001 (fun _ _ => some ⟨1, sampleParty, some "sponsor"⟩) "signal" sampleCall)

theorem sampleDesk_reachable : (desk sampleDeskCtx).Reachable sampleDesk :=
  .step (.init rfl) trivial rfl

/-- What a chat message of a party that is taken adds to what was sent: its copy, and a ring for the
operators unless it is quiet.  A call rings in any case, and may go on to tell the other party. -/
def ChatAdds (ctx : DeskCtx) (now : ℤ) (event : InboxEvent ChatFields) (before after : List Entry) :
    Prop :=
  ∃ track orderId role p copied, trackOf ctx event.tags = some track ∧
    given (extractOrderId event.tags) = some orderId ∧ event.content = .payload p ∧
    copied = Entry.copy now (now + chatCopyRetentionSec)
      ⟨track, orderId, event.pubkey, ctx.appPubkey, some role, p, event.createdAt, event.id⟩ ∧
    ((p.type ≠ .text "call" ∧ ChatQuiet before now track orderId ∧
        after = before ++ [copied, .unrung now track orderId]) ∨
      (p.type ≠ .text "call" ∧ ¬ ChatQuiet before now track orderId ∧
        ∃ text, after = before ++ [copied, .ring now false track orderId text]) ∨
      (p.type = .text "call" ∧ ∃ text told, after = before ++ [copied, .ring now true track orderId text] ++
        told ∧ ∀ e ∈ told, ∀ t id, e.ringAt t id = none ∧ e.heardAt t id = none))

/-- What a message between the parties that is taken adds: a push for the other one unless it is
quiet. -/
def PeerAdds (ctx : DeskCtx) (now : ℤ) (directory : OrderDirectory) (event : InboxEvent ChatFields)
    (before after : List Entry) : Prop :=
  ∃ track orderId parties role recipient, trackOf ctx event.tags = some track ∧
    given (extractOrderId event.tags) = some orderId ∧ directory track orderId = some parties ∧
    roleIn parties event.pubkey = some role ∧ parties.counterparty role = some recipient ∧
    ((PeerQuiet before now track orderId ∧
        after = before ++ [.heard now false track orderId]) ∨
      (¬ PeerQuiet before now track orderId ∧
        after = before ++ [.heard now true track orderId,
          .push recipient (peerMessage role.other.tab track) orderId ("peer:" ++ orderId)]))

theorem tellCounterparty_log {ctx : DeskCtx} {now : ℤ} {eventId : String} {track : Track}
    {orderId : OrderId} {recipient : Pubkey} {role : OrderRole} {d d' : Desk}
    (h : tellCounterparty ctx now eventId track orderId recipient role d = .ok d') :
    ∃ told, d'.log = d.log ++ told ∧ ∀ e ∈ told, ∀ t id, e.ringAt t id = none ∧
      e.heardAt t id = none := by
  unfold tellCounterparty at h
  split at h
  · cases h
    exact ⟨[], (List.append_nil _).symm, List.forall_mem_nil _⟩
  · obtain ⟨c, rfl⟩ := sendAsApp_eq h
    refine ⟨[.message now track orderId recipient .called,
      .push recipient (operatorCalled role.tab track) orderId ("chat:" ++ orderId),
      .copy now (now + chatCopyRetentionSec) c], by simp, ?_⟩
    simp [Entry.ringAt, Entry.heardAt]

theorem chatAdds_of_ok {ctx : DeskCtx} {now : ℤ} {directory : OrderDirectory} {eventId : String}
    {event : InboxEvent ChatFields} {d d' : Desk} (hk : DeskKept d)
    (h : createChatForwarder ctx now directory eventId event d = .ok (.ok, d')) :
    ChatAdds ctx now event d.log d'.log := by
  obtain ⟨track, orderId, parties, role, p, htrack, horder, -, -, hcontent, htake⟩ :=
    createChatForwarder_ok h
  refine ⟨track, orderId, role, p, _, htrack, horder, hcontent, rfl, ?_⟩
  obtain ⟨d₁, rfl, ⟨htype, d₂, hcall, hrest⟩ | ⟨htype, hdm⟩⟩ := takePayload_cases htake
  · obtain ⟨text, rfl⟩ := callOperators_eq hcall
    obtain ⟨recipient, -, -, htell⟩ | ⟨-, rfl⟩ := hrest
    · obtain ⟨told, hlog, htold⟩ := tellCounterparty_log htell
      exact .inr (.inr ⟨htype, text, told, by simp [hlog], htold⟩)
    · exact .inr (.inr ⟨htype, text, [], by simp, List.forall_mem_nil _⟩)
  · obtain ⟨hquiet, rfl⟩ | ⟨hquiet, text, rfl⟩ := dmOperators_cases hdm
    · rw [Desk.kvGet_send, hk.chatDm] at hquiet
      exact .inl ⟨htype, hquiet, by simp⟩
    · rw [Desk.kvGet_send, hk.chatDm] at hquiet
      exact .inr (.inl ⟨htype, hquiet, text, by simp⟩)

theorem peerAdds_of_ok {ctx : DeskCtx} {now : ℤ} {directory : OrderDirectory}
    {event : InboxEvent ChatFields} {d d' : Desk} (hk : DeskKept d)
    (h : createPeerPinger ctx now directory event d = (.ok, d')) :
    PeerAdds ctx now directory event d.log d'.log := by
  have hquiet : ∀ track orderId, ((d.kvGet .peerLast track orderId).any fun last =>
      decide (now - last < peerPushQuietSec)) = true ↔ PeerQuiet d.log now track orderId := by
    intro track orderId
    rw [PeerQuiet, ← hk.peerLast, Option.any_eq_true]
    exact exists_congr fun last => and_congr_right fun _ => decide_eq_true_iff
  unfold createPeerPinger at h
  split at h
  · cases h
  next track htrack =>
  split at h
  · cases h
  next orderId horder =>
  split at h
  · cases h
  next parties hparties =>
  split at h
  · cases h
  next role hrole =>
  split at h
  · cases h
  next recipient hrecipient =>
  refine ⟨track, orderId, parties, role, recipient, htrack, horder, hparties, hrole, hrecipient, ?_⟩
  by_cases hq : PeerQuiet d.log now track orderId
  · simp only [(hquiet track orderId).mpr hq, if_true, Prod.mk.injEq, true_and] at h
    subst h
    exact .inl ⟨hq, by simp⟩
  · have hnot := Bool.eq_false_iff.mpr fun ht => hq ((hquiet track orderId).mp ht)
    simp only [hnot, Bool.false_eq_true, if_false, Prod.mk.injEq, true_and] at h
    subst h
    exact .inr ⟨hq, by simp⟩

/-- In every run, and for each order on its own: a chat message of a party that is taken rings the
operators exactly when they were not rung for that order in the last ten minutes, by a message or by a
call; and a message between the parties that is taken rings the other one exactly when it is the
first, or none was heard in the last five minutes.  What has been sent so far is right by the same
rule, entry for entry. -/
theorem desk_rings {ctx : DeskCtx} {d : Desk} (hd : (desk ctx).Reachable d) :
    EachAfter Entry.Right d.log ∧
    (∀ now directory eventId event d',
      createChatForwarder ctx now directory eventId event d = .ok (.ok, d') →
      ChatAdds ctx now event d.log d'.log) ∧
    ∀ now directory event d', createPeerPinger ctx now directory event d = (.ok, d') →
      PeerAdds ctx now directory event d.log d'.log :=
  have hk := kept_of_reachable hd
  ⟨hk.right, fun _ _ _ _ _ h => chatAdds_of_ok hk h, fun _ _ _ _ h => peerAdds_of_ok hk h⟩

/-- A message of the same customer, to the sponsor, a minute after the call. -/
def samplePeer : InboxEvent ChatFields where
  id := "peer"
  pubkey := sampleParty
  isHex64_pubkey := isHex64_sampleParty
  createdAt := 1060
  tags := [["t", "ln"], ["a", "38383:app:abcd"]]
  content := .undecryptable

/-- A text of the same customer, to the operators. -/
def sampleText : InboxEvent ChatFields :=
  { samplePeer with content := .payload (ChatPayload.text "hello").fields }

/-- The directory of the samples. -/
def sampleDirectory : OrderDirectory := fun _ _ => some ⟨1, sampleParty, some "sponsor"⟩

/-- After the call its customer is heard: the sponsor's phone rings, and the operators' does not. -/
theorem desk_rings_sample : sampleDesk.log.length = 5 ∧ EachAfter Entry.Right sampleDesk.log ∧
    (∃ d', createChatForwarder sampleDeskCtx 1061 sampleDirectory "text" sampleText sampleDesk =
      .ok (.ok, d') ∧ ChatAdds sampleDeskCtx 1061 sampleText sampleDesk.log d'.log) ∧
    PeerAdds sampleDeskCtx 1061 sampleDirectory samplePeer sampleDesk.log
      (createPeerPinger sampleDeskCtx 1061 sampleDirectory samplePeer sampleDesk).2.log := by
  have htext : ∃ d', createChatForwarder sampleDeskCtx 1061 sampleDirectory "text" sampleText
      sampleDesk = .ok (.ok, d') := ⟨_, rfl⟩
  obtain ⟨d', hd'⟩ := htext
  exact ⟨by decide +kernel, (desk_rings sampleDesk_reachable).1,
    ⟨d', hd', (desk_rings sampleDesk_reachable).2.1 _ _ _ _ _ hd'⟩,
    (desk_rings sampleDesk_reachable).2.2 _ _ _ _ rfl⟩

/-- After a key was told of, the row is there. -/
theorem tellCounterparty_disclosed {ctx : DeskCtx} {now : ℤ} {eventId : String} {track : Track}
    {orderId : OrderId} {recipient : Pubkey} {role : OrderRole} {d d' : Desk}
    (h : tellCounterparty ctx now eventId track orderId recipient role d = .ok d') :
    (d'.kvGet .disclosed track orderId).toList.length = 1 := by
  unfold tellCounterparty at h
  split at h
  next hold =>
    cases h
    obtain ⟨sec, hsec⟩ := Option.isSome_iff_exists.mp hold
    rw [hsec]
    rfl
  · unfold sendAsApp forwardToOperators at h
    split at h
    · split at h
      · cases h
        simp
      · cases h
    · cases h

/-- In every run a party is told at most once for an order that the operators read along, and after
a call that hands over the key, with somebody to tell, it was told. -/
theorem told_once {ctx : DeskCtx} {d : Desk} (hd : (desk ctx).Reachable d) (track : Track)
    (orderId : OrderId) :
    d.log.countP (Entry.tells track orderId) ≤ 1 ∧
    ∀ now eventId parties role event p d' recipient,
      takePayload ctx now eventId track orderId parties role event p d = .ok d' →
      p.type = .text "call" → p.peerChatKey ≠ .absent →
      parties.counterparty role = some recipient →
      d'.log.countP (Entry.tells track orderId) = 1 := by
  have hk := kept_of_reachable hd
  constructor
  · rw [hk.disclosed]
    cases d.kvGet .disclosed track orderId with
    | none => exact Nat.zero_le 1
    | some sec => exact Nat.le_refl 1
  · intro now eventId parties role event p d' recipient h hcall hkey hto
    have hk' := hk.moves (takePayload_moves h)
    obtain ⟨d₁, -, ⟨-, d₂, -, ⟨recipient', -, -, htell⟩ | ⟨hnot, -⟩⟩ | ⟨hnot, -⟩⟩ :=
      takePayload_cases h
    · rw [hk'.disclosed, tellCounterparty_disclosed htell]
    · rcases hnot with hnot | hnot
      · rw [hto] at hnot
        cases hnot
      · exact absurd hnot hkey
    · exact absurd hcall hnot

/-- The customer calls with the key, and calls again. -/
theorem told_once_sample :
    (∃ d', takePayload sampleDeskCtx 1001 "signal" .ln "abcd" ⟨1, sampleParty, some "sponsor"⟩ .customer
        sampleCall (ChatPayload.call "help" (some sampleParty)).fields ⟨fun _ => none, []⟩ = .ok d' ∧
      d'.log.countP (Entry.tells .ln "abcd") = 1) ∧
    sampleDesk.log.countP (Entry.tells .ln "abcd") ≤ 1 ∧
    ∃ d', takePayload sampleDeskCtx 1090 "signal2" .ln "abcd" ⟨1, sampleParty, some "sponsor"⟩ .customer
        sampleCall (ChatPayload.call "help" (some sampleParty)).fields sampleDesk = .ok d' ∧
      d'.log.countP (Entry.tells .ln "abcd") = 1 := by
  have hfirst : ∃ d', takePayload sampleDeskCtx 1001 "signal" .ln "abcd"
      ⟨1, sampleParty, some "sponsor"⟩ .customer sampleCall
      (ChatPayload.call "help" (some sampleParty)).fields ⟨fun _ => none, []⟩ = .ok d' := ⟨_, rfl⟩
  have hagain : ∃ d', takePayload sampleDeskCtx 1090 "signal2" .ln "abcd"
      ⟨1, sampleParty, some "sponsor"⟩ .customer sampleCall
      (ChatPayload.call "help" (some sampleParty)).fields sampleDesk = .ok d' := ⟨_, rfl⟩
  obtain ⟨d₁, hd₁⟩ := hfirst
  obtain ⟨d₂, hd₂⟩ := hagain
  exact ⟨⟨d₁, hd₁, (told_once (.init rfl) .ln "abcd").2 _ _ _ _ _ _ d₁ "sponsor" hd₁ rfl (by decide) rfl⟩,
    (told_once sampleDesk_reachable .ln "abcd").1,
    d₂, hd₂, (told_once sampleDesk_reachable .ln "abcd").2 _ _ _ _ _ _ d₂ "sponsor" hd₂ rfl (by decide) rfl⟩

end LnPay
