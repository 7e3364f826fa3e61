/-
# The parties' chat (`shared/src/peer-chat.ts`, `shared/src/order-ref.ts`)

The two parties of an order seal what they write with a key of that order.  Each
of them computes it alone, and an operator who is called is given it as hex.  A
sealed text does not say which of the two wrote it: the author of the event does.

* `peerMessageTemplate` makes an event, `openPeerMessage` is what a reader makes of one,
* `openPeerMessage_event` says when a message opens,
* `peerChat_read` says what a reader has of everything that was ever posted.
-/
import LnPay.Escrow
import LnPay.InboxDispatch
import LnPay.JsonText
import LnPay.Routing

namespace LnPay

/-! ## Payloads -/

/-- `DisputeMessagePayload`, as far as these modules write it. -/
inductive ChatPayload
  | text (content : String)
  | call (reason : String) (peerChatKey : Option String)
  | called

/-- A field of an object that came in as JSON. -/
inductive JsonField
  | absent
  | other
  | text (s : String)
  deriving DecidableEq

/-- The fields a reader looks at. -/
structure ChatFields where
  type : JsonField
  content : JsonField := .absent
  reason : JsonField := .absent
  peerChatKey : JsonField := .absent
  /-- whether `accountInfo` is an object -/
  accountInfo : Bool := false

/-- The fields of what was written. -/
def ChatPayload.fields : ChatPayload → ChatFields
  | .text content => { type := .text "text", content := .text content }
  | .call reason key =>
    { type := .text "call"
      reason := .text reason
      peerChatKey := (key.map JsonField.text).getD .absent }
  | .called => { type := .text "called" }

/-- `String.prototype.length`. -/
def utf16Length (s : String) : ℕ :=
  (s.toList.map fun c => if c.toNat < 0x10000 then 1 else 2).sum

/-- `MAX_CHAT_TEXT`. -/
def maxChatText : ℕ := 2000

/-! ## Keys -/

/-- NIP-44 v2, HKDF and JSON, as far as the chat goes.  Two keys agree on their conversation key,
and what is sealed with one key is not opened with another. -/
structure PeerCrypto (K : Type) where
  publicKey : K → Pubkey
  conversationKey : K → Pubkey → Bytes
  hkdf : Bytes → String → String → Bytes
  encrypt : String → Bytes → Option String
  decrypt : String → Bytes → Option String
  stringify : ChatPayload → String
  parse : String → Option ChatFields
  conversationKey_comm : ∀ a b, conversationKey a (publicKey b) = conversationKey b (publicKey a)
  length_hkdf : ∀ pair salt info, (hkdf pair salt info).length = 32
  decrypt_encrypt : ∀ {text key sealed}, encrypt text key = some sealed →
    decrypt sealed key = some text
  decrypt_other : ∀ {text key key' sealed}, encrypt text key = some sealed → key' ≠ key →
    decrypt sealed key' = none
  parse_stringify : ∀ payload, parse (stringify payload) = some payload.fields

variable {K : Type} (S : PeerCrypto K)

/-- `derivePeerChatKey`. -/
def derivePeerChatKey (mySecretKey : K) (peerPubkey : Pubkey) (track : Track) (orderId : OrderId) :
    Bytes :=
  S.hkdf (S.conversationKey mySecretKey peerPubkey) "pairbuy-peer-chat"
    ("v1:" ++ track.text ++ ":" ++ orderId)

/-- `isPeerChatKeyHex`. -/
def isPeerChatKeyHex (s : String) : Bool := isHex64 s

/-- `isCallPayload`. -/
def isCallPayload (p : ChatFields) : Bool :=
  (p.type = .text "call") &&
    (match p.reason with
      | .text reason => jsTrim reason ≠ "" && utf16Length reason ≤ maxChatText
      | _ => false) &&
    (match p.peerChatKey with
      | .absent => true
      | .text key => isPeerChatKeyHex key
      | .other => false)

/-! ### A key written as hex -/

/-- The two digits of a byte. -/
theorem hexDigit_byte : ∀ b : UInt8,
    hexDigit? (Nat.digitChar (b.toNat / 16)) = some (b.toNat / 16) ∧
      hexDigit? (Nat.digitChar (b.toNat % 16)) = some (b.toNat % 16) := by
  suffices h : ∀ n < 16, hexDigit? (Nat.digitChar n) = some n by
    intro b
    have hb : b.toNat < 256 := b.toNat_lt
    exact ⟨h _ (by omega), h _ (by omega)⟩
  decide

theorem hexPairs_bytes (bytes : Bytes) :
    hexPairs (bytes.flatMap fun b =>
      [Nat.digitChar (b.toNat / 16), Nat.digitChar (b.toNat % 16)]) = some bytes := by
  induction bytes with
  | nil => rfl
  | cons b bytes ih =>
    obtain ⟨hhigh, hlow⟩ := hexDigit_byte b
    rw [List.flatMap_cons]
    simp only [List.cons_append, List.nil_append, hexPairs, hhigh, hlow, ih, Option.bind_eq_bind,
      Option.bind_some]
    have hsum : 16 * (b.toNat / 16) + b.toNat % 16 = b.toNat := Nat.div_add_mod _ _
    rw [hsum, UInt8.ofNat_toNat]
    rfl

/-- Bytes come back from their hex. -/
theorem hexToBytes_bytesToHex (bytes : Bytes) : hexToBytes (bytesToHex bytes) = .ok bytes := by
  rw [hexToBytes, bytesToHex, String.toList_ofList, hexPairs_bytes]

theorem length_bytesToHex (bytes : Bytes) : (bytesToHex bytes).toList.length = 2 * bytes.length := by
  rw [bytesToHex, String.toList_ofList]
  induction bytes with
  | nil => rfl
  | cons b bytes ih =>
    rw [List.flatMap_cons, List.length_append, ih]
    simp only [List.length_cons, List.length_nil]
    omega

/-- The digits are the ones the checks want. -/
theorem digitChar_isHex : ∀ n < 16,
    ((Nat.digitChar n).isDigit || ('a' ≤ Nat.digitChar n && Nat.digitChar n ≤ 'f')) = true := by
  decide

/-- The hex of a key of 32 bytes is the hex of a key. -/
theorem isPeerChatKeyHex_bytesToHex {key : Bytes} (h : key.length = 32) :
    isPeerChatKeyHex (bytesToHex key) = true := by
  rw [isPeerChatKeyHex, isHex64, length_bytesToHex, h]
  simp only [Nat.reduceMul, decide_true, Bool.true_and, List.all_eq_true]
  intro c hc
  rw [bytesToHex, String.toList_ofList] at hc
  obtain ⟨b, -, hb⟩ := List.mem_flatMap.mp hc
  have hlt : b.toNat < 256 := b.toNat_lt
  simp only [List.mem_cons, List.not_mem_nil, or_false] at hb
  rcases hb with rfl | rfl
  · exact digitChar_isHex (b.toNat / 16) (by omega)
  · exact digitChar_isHex (b.toNat % 16) (by omega)

/-! ### A cryptography that can be computed -/

namespace PeerCrypto

/-- A text behind the key it is sealed with. -/
def sealWith (text : String) (key : Bytes) : String :=
  String.ofList ((bytesToHex key).toList ++ ':' :: text.toList)

/-- The text, when this is the key. -/
def openWith (sealed : String) (key : Bytes) : Option String :=
  if sealed.toList.takeWhile (· ≠ ':') = (bytesToHex key).toList then
    some (String.ofList ((sealed.toList.dropWhile (· ≠ ':')).drop 1))
  else none

theorem colon_notMem_bytesToHex (key : Bytes) : ':' ∉ (bytesToHex key).toList := by
  intro hmem
  rw [bytesToHex, String.toList_ofList] at hmem
  obtain ⟨b, -, hb⟩ := List.mem_flatMap.mp hmem
  have hlt : b.toNat < 256 := b.toNat_lt
  have hdigit : ∀ n < 16, ':' ≠ Nat.digitChar n := by decide
  simp only [List.mem_cons, List.not_mem_nil, or_false] at hb
  rcases hb with hb | hb
  · exact hdigit (b.toNat / 16) (by omega) hb
  · exact hdigit (b.toNat % 16) (by omega) hb

theorem bytesToHex_injective : Function.Injective bytesToHex := by
  intro a b h
  have hbytes := hexToBytes_bytesToHex a
  rw [h, hexToBytes_bytesToHex] at hbytes
  exact (Except.ok.inj hbytes).symm

theorem openWith_sealWith (text : String) (key key' : Bytes) :
    openWith (sealWith text key) key' = if key' = key then some text else none := by
  have hall : ∀ c ∈ (bytesToHex key).toList, (decide (c ≠ ':')) = true := fun c hc =>
    decide_eq_true fun heq => colon_notMem_bytesToHex key (heq ▸ hc)
  rw [openWith, sealWith, String.toList_ofList, List.takeWhile_append_of_pos hall,
    List.dropWhile_append_of_pos hall]
  simp only [ne_eq, not_true_eq_false, decide_false, Bool.false_eq_true, not_false_eq_true,
    List.takeWhile_cons_of_neg, List.dropWhile_cons_of_neg, List.append_nil, List.drop_succ_cons,
    List.drop_zero, String.ofList_toList]
  refine if_congr ?_ rfl rfl
  rw [String.toList_inj]
  exact ⟨fun h => (bytesToHex_injective h).symm, fun h => h ▸ rfl⟩

theorem openWith_self {text : String} {key : Bytes} {sealed : String}
    (h : some (sealWith text key) = some sealed) : openWith sealed key = some text := by
  rw [← Option.some.inj h, openWith_sealWith, if_pos rfl]

theorem openWith_other {text : String} {key key' : Bytes} {sealed : String}
    (h : some (sealWith text key) = some sealed) (hne : key' ≠ key) : openWith sealed key' = none := by
  rw [← Option.some.inj h, openWith_sealWith, if_neg hne]

/-- The public key of an exponent, in a small group. -/
def power (k : ℕ) : Pubkey := String.ofList (Nat.toDigits 10 (5 ^ k % 23))

/-- The key that two exponents share. -/
def sharedPower (k : ℕ) (pubkey : Pubkey) : Bytes :=
  [UInt8.ofNat (Nat.ofDigitChars 10 pubkey.toList 0 ^ k % 23)]

theorem sharedPower_comm (a b : ℕ) : sharedPower a (power b) = sharedPower b (power a) := by
  simp only [sharedPower, power, String.toList_ofList, Nat.ofDigitChars_ten_toDigits]
  rw [← Nat.pow_mod, ← Nat.pow_mod, ← pow_mul, ← pow_mul, Nat.mul_comm]

/-- As many bytes as a key has. -/
def firstBytes (pair : Bytes) (salt info : String) : Bytes :=
  (pair ++ (salt ++ info).toList.map (fun c : Char => UInt8.ofNat c.toNat) ++ List.replicate 32 0).take 32

theorem length_firstBytes (pair : Bytes) (salt info : String) :
    (firstBytes pair salt info).length = 32 := by
  rw [firstBytes, List.length_take, List.length_append, List.length_replicate]
  omega

/-- The fields of a payload, as they are written. -/
def entries : ChatPayload → List (String × String)
  | .text content => [("type", "text"), ("content", content)]
  | .call reason key =>
    ("type", "call") :: ("reason", reason) :: (key.map fun key => ("peerChatKey", key)).toList
  | .called => [("type", "called")]

/-- A field that was read. -/
def fieldOf (entries : List (String × String)) (name : String) : JsonField :=
  match entries.find? fun e => e.1 = name with
  | some e => .text e.2
  | none => .absent

/-- The fields that were read. -/
def fieldsOf (text : String) : Option ChatFields :=
  (JsonCodec.text.object.parse text).map fun entries =>
    { type := fieldOf entries "type"
      content := fieldOf entries "content"
      reason := fieldOf entries "reason"
      peerChatKey := fieldOf entries "peerChatKey" }

theorem fieldsOf_stringify (payload : ChatPayload) :
    fieldsOf (JsonCodec.text.object.stringify (entries payload)) = some payload.fields := by
  rw [fieldsOf, JsonCodec.parse_stringify]
  cases payload with
  | text content => rfl
  | call reason key =>
    cases key with
    | none => rfl
    | some key => rfl
  | called => rfl

/-- Exponents for keys, and JSON objects of texts. -/
def small : PeerCrypto ℕ where
  publicKey := power
  conversationKey := sharedPower
  hkdf := firstBytes
  encrypt text key := some (sealWith text key)
  decrypt := openWith
  stringify payload := JsonCodec.text.object.stringify (entries payload)
  parse := fieldsOf
  conversationKey_comm := sharedPower_comm
  length_hkdf := length_firstBytes
  decrypt_encrypt := openWith_self
  decrypt_other := openWith_other
  parse_stringify := fieldsOf_stringify

end PeerCrypto

/-! ## Messages -/


/-- `PEER_CHAT_RETENTION_SEC`. -/
def peerChatRetentionSec : ℤ := 90 * 24 * 60 * 60

/-- `orderRef`. -/
def orderRef (appPubkey : Pubkey) (orderId : OrderId) : String :=
  orderKind ++ ":" ++ appPubkey ++ ":" ++ orderId

/-- A message event. -/
structure ChatEvent where
  kind : ℕ
  pubkey : Pubkey
  createdAt : ℤ
  tags : List (List String)
  content : String

/-- The arguments of `peerMessageTemplate`. -/
structure PeerMessage where
  appPubkey : Pubkey
  trackTag : String
  orderId : OrderId
  myPubkey : Pubkey
  peerPubkey : Pubkey
  key : Bytes
  text : String
  createdAt : ℤ

/-- The tags of a message. -/
def PeerMessage.tags (m : PeerMessage) : List (List String) :=
  [["a", orderRef m.appPubkey m.orderId],
    ["action", "peer-message"],
    ["t", m.trackTag],
    ["p", m.peerPubkey],
    ["p", m.myPubkey],
    ["p", m.appPubkey],
    ["expiration", toString (m.createdAt + peerChatRetentionSec)]]

/-- `peerMessageTemplate`, signed by its sender; `none` when it cannot be sealed. -/
def peerMessageTemplate (m : PeerMessage) : Option ChatEvent :=
  (S.encrypt (S.stringify (.text m.text)) m.key).map fun content =>
    ⟨messageKind, m.myPubkey, m.createdAt, m.tags, content⟩

/-- What `openPeerMessage` is told about the chat. -/
structure PeerContext where
  orderId : OrderId
  trackTag : String
  customer : Pubkey
  sponsor : Pubkey
  key : Bytes

/-- The text of a payload that is one. -/
def ChatFields.shortText (p : ChatFields) : Option String :=
  match p.content with
  | .text content =>
    if p.type = .text "text" ∧ utf16Length content ≤ maxChatText then some content else none
  | _ => none

/-- `openPeerMessage`. -/
def openPeerMessage (ctx : PeerContext) (e : ChatEvent) : Option String :=
  if e.kind ≠ messageKind then none
  else if tagValue e.tags "action" ≠ some "peer-message" then none
  else if tagValue e.tags "t" ≠ some ctx.trackTag then none
  else if extractOrderId e.tags ≠ some ctx.orderId then none
  else if e.pubkey ≠ ctx.customer ∧ e.pubkey ≠ ctx.sponsor then none
  else ((S.decrypt e.content ctx.key).bind S.parse).bind ChatFields.shortText

/-! ### The order a message is about -/

/-- The parts of a reference. -/
theorem splitOn_parts (kind : List Char) {app orderId : List Char} (hkind : ':' ∉ kind)
    (happ : ':' ∉ app) (hid : ':' ∉ orderId) :
    (kind ++ [':'] ++ app ++ [':'] ++ orderId).splitOn ':' = [kind, app, orderId] := by
  have hjoin : kind ++ [':'] ++ app ++ [':'] ++ orderId =
      [':'].intercalate [kind, app, orderId] := by
    simp [List.intercalate]
  rw [hjoin]
  refine List.splitOn_intercalate ':' (fun l hl => ?_) (by simp)
  simp only [List.mem_cons, List.not_mem_nil, or_false] at hl
  rcases hl with rfl | rfl | rfl
  · exact hkind
  · exact happ
  · exact hid

/-- A key in hex has no colon in it. -/
theorem colon_notMem_hex {s : String} (h : isHex64 s = true) : ':' ∉ s.toList := by
  intro hmem
  simp only [isHex64, Bool.and_eq_true, List.all_eq_true] at h
  exact absurd (h.2 _ hmem) (by decide)

/-- Nor has an order id. -/
theorem colon_notMem_orderId {s : String} (h : isOrderId s = true) : ':' ∉ s.toList := by
  intro hmem
  simp only [isOrderId, Bool.and_eq_true, List.all_eq_true] at h
  exact absurd (h.2 _ hmem) (by decide)

/-- The order of a message is read back. -/
theorem extractOrderId_tags {m : PeerMessage} (happ : isHex64 m.appPubkey = true)
    (hid : isOrderId m.orderId = true) : extractOrderId m.tags = some m.orderId := by
  have hparts := splitOn_parts orderKind.toList (by decide) (colon_notMem_hex happ)
    (colon_notMem_orderId hid)
  have ha : tagValue m.tags "a" = some (orderRef m.appPubkey m.orderId) := rfl
  have hlist : (orderRef m.appPubkey m.orderId).toList =
      orderKind.toList ++ [':'] ++ m.appPubkey.toList ++ [':'] ++ m.orderId.toList := by
    simp only [orderRef, String.toList_append]
    rfl
  simp only [extractOrderId, ha, hlist, hparts, List.map_cons, List.map_nil, String.ofList_toList,
    if_true]

/-- When a message opens, and to what. -/
theorem openPeerMessage_event (ctx : PeerContext) {m : PeerMessage} {e : ChatEvent}
    (happ : isHex64 m.appPubkey = true) (hid : isOrderId m.orderId = true)
    (he : peerMessageTemplate S m = some e) :
    openPeerMessage S ctx e =
      if m.trackTag = ctx.trackTag ∧ m.orderId = ctx.orderId ∧
          (m.myPubkey = ctx.customer ∨ m.myPubkey = ctx.sponsor) ∧ m.key = ctx.key ∧
          utf16Length m.text ≤ maxChatText
      then some m.text else none := by
  obtain ⟨content, hseal, rfl⟩ := Option.map_eq_some_iff.mp he
  have hact : tagValue m.tags "action" = some "peer-message" := rfl
  have htag : tagValue m.tags "t" = some m.trackTag := rfl
  have hord := extractOrderId_tags happ hid
  simp only [openPeerMessage, hact, htag, hord, ne_eq, not_true_eq_false, if_false,
    Option.some.injEq, ite_not]
  by_cases ht : m.trackTag = ctx.trackTag
  · by_cases ho : m.orderId = ctx.orderId
    · by_cases hp : m.myPubkey = ctx.customer ∨ m.myPubkey = ctx.sponsor
      · have hp' : ¬ (¬ m.myPubkey = ctx.customer ∧ ¬ m.myPubkey = ctx.sponsor) := by
          rintro ⟨hc, hs⟩
          exact hp.elim hc hs
        rw [if_pos ht, if_pos ho, if_neg hp']
        by_cases hk : m.key = ctx.key
        · have hopen := S.decrypt_encrypt hseal
          rw [← hk, hopen, Option.bind_some, S.parse_stringify, Option.bind_some]
          simp only [ChatPayload.fields, ChatFields.shortText, true_and, ht, ho, hp]
        · have hshut := S.decrypt_other hseal (Ne.symm hk)
          rw [hshut, if_neg fun h => hk h.2.2.2.1]
          rfl
      · have hp' : ¬ m.myPubkey = ctx.customer ∧ ¬ m.myPubkey = ctx.sponsor := not_or.mp hp
        rw [if_pos ht, if_pos ho, if_pos hp', if_neg fun h => hp h.2.2.1]
    · rw [if_pos ht, if_neg ho, if_neg fun h => ho h.2.1]
  · rw [if_neg ht, if_neg fun h => ht h.1]

/-! ## A chat and its readers -/

/-- The chat of an order. -/
structure PeerChat (K : Type) where
  app : Pubkey
  isHex64_app : isHex64 app = true
  customer : K
  sponsor : K
  track : Track
  orderId : OrderId
  isOrderId_orderId : isOrderId orderId = true

/-- A reason an operator can be called for. -/
def CallReason : Type := {reason : String // jsTrim reason ≠ "" ∧ utf16Length reason ≤ maxChatText}

/-- Those who read it. -/
inductive PeerReader
  | customer
  | sponsor
  | calledByCustomer (reason : CallReason)
  | calledBySponsor (reason : CallReason)

namespace PeerChat

variable (trackTag : Track → String) (chat : PeerChat K)

/-- The key of the customer's app. -/
def customerKey : Bytes :=
  derivePeerChatKey S chat.customer (S.publicKey chat.sponsor) chat.track chat.orderId

/-- The key of the sponsor's app. -/
def sponsorKey : Bytes :=
  derivePeerChatKey S chat.sponsor (S.publicKey chat.customer) chat.track chat.orderId

/-- The key a call hands to the operators: what `isCallPayload` lets through, out of its hex. -/
def disclosed (reason : CallReason) (key : Bytes) : Except String Bytes :=
  if isCallPayload (ChatPayload.fields (.call reason.val (some (bytesToHex key)))) then
    hexToBytes (bytesToHex key)
  else .error "bad-payload"

/-- The key of a reader. -/
def readerKey : PeerReader → Except String Bytes
  | .customer => .ok (chat.customerKey S)
  | .sponsor => .ok (chat.sponsorKey S)
  | .calledByCustomer reason => disclosed reason (chat.customerKey S)
  | .calledBySponsor reason => disclosed reason (chat.sponsorKey S)

/-- What a reader with that key tells `openPeerMessage`. -/
def context (key : Bytes) : PeerContext :=
  ⟨chat.orderId, trackTag chat.track, S.publicKey chat.customer, S.publicKey chat.sponsor, key⟩

/-- The parties' apps compute the same key. -/
theorem sponsorKey_eq : chat.sponsorKey S = chat.customerKey S := by
  simp only [sponsorKey, customerKey, derivePeerChatKey, S.conversationKey_comm]

/-- A call hands over the key itself. -/
theorem disclosed_of_length (reason : CallReason) {key : Bytes} (h : key.length = 32) :
    disclosed reason key = .ok key := by
  have hhex := isPeerChatKeyHex_bytesToHex h
  have hcall : isCallPayload (ChatPayload.fields
      (.call reason.val (some (bytesToHex key)))) = true := by
    obtain ⟨reason, hblank, hlong⟩ := reason
    simp only [isCallPayload, ChatPayload.fields, Option.map_some, Option.getD_some, hhex,
      Bool.and_true, ne_eq, hblank, not_false_eq_true, decide_true, hlong]
  rw [disclosed, if_pos hcall, hexToBytes_bytesToHex]

/-- Every reader has the key of the chat. -/
theorem readerKey_eq (reader : PeerReader) : chat.readerKey S reader = .ok (chat.customerKey S) := by
  cases reader with
  | customer => rfl
  | sponsor => rw [readerKey, sponsorKey_eq]
  | calledByCustomer reason => exact disclosed_of_length reason (S.length_hkdf _ _ _)
  | calledBySponsor reason =>
    rw [readerKey, sponsorKey_eq]
    exact disclosed_of_length reason (S.length_hkdf _ _ _)

end PeerChat

/-! ## Everything that was posted -/

/-- Something posted where the readers of a chat look.  A user's app writes messages through
`peerMessageTemplate`, of any order and to anybody; any other event is made by hand, and can be
anything, whoever signed it. -/
inductive Posted (S : PeerCrypto K) (chat : PeerChat K)
  | message (sender : K) (peer : Pubkey) (track : Track) (orderId : {s : OrderId // isOrderId s})
      (text : String) (createdAt : ℤ)
  | handmade (e : ChatEvent)

/-- An event is a message of the chat by its outside: its kind, what it is for and who signed it. -/
structure PeerChat.Holds (trackTag : Track → String) (chat : PeerChat K) (e : ChatEvent) : Prop where
  kind : e.kind = messageKind
  action : tagValue e.tags "action" = some "peer-message"
  track : tagValue e.tags "t" = some (trackTag chat.track)
  orderId : extractOrderId e.tags = some chat.orderId
  byParty : e.pubkey = S.publicKey chat.customer ∨ e.pubkey = S.publicKey chat.sponsor

instance (trackTag : Track → String) (chat : PeerChat K) (e : ChatEvent) :
    Decidable (chat.Holds S trackTag e) :=
  decidable_of_iff (e.kind = messageKind ∧ tagValue e.tags "action" = some "peer-message" ∧
      tagValue e.tags "t" = some (trackTag chat.track) ∧ extractOrderId e.tags = some chat.orderId ∧
      (e.pubkey = S.publicKey chat.customer ∨ e.pubkey = S.publicKey chat.sponsor))
    ⟨fun h => ⟨h.1, h.2.1, h.2.2.1, h.2.2.2.1, h.2.2.2.2⟩,
      fun h => ⟨h.kind, h.action, h.track, h.orderId, h.byParty⟩⟩

namespace Posted

/-- The arguments of a user's message. -/
def messageArgs (S : PeerCrypto K) (trackTag : Track → String) (chat : PeerChat K) (sender : K)
    (peer : Pubkey) (track : Track) (orderId : OrderId) (text : String) (createdAt : ℤ) : PeerMessage :=
  { appPubkey := chat.app
    trackTag := trackTag track
    orderId := orderId
    myPubkey := S.publicKey sender
    peerPubkey := peer
    key := derivePeerChatKey S sender peer track orderId
    text := text
    createdAt := createdAt }

variable {S}
variable (trackTag : Track → String) {chat : PeerChat K}

/-- The event, when there is one. -/
def event : Posted S chat → Option ChatEvent
  | .message sender peer track orderId text createdAt =>
    peerMessageTemplate S (messageArgs S trackTag chat sender peer track orderId text createdAt)
  | .handmade e => some e

/-- What it says in the chat: a text that a party sealed for this order, track and key, and that is
not too long.  What was made by hand says what its content says to the key of the chat, if a party
signed it as a message of the chat. -/
def said (p : Posted S chat) : Option String :=
  match p with
  | .message sender peer track orderId text _ =>
    if trackTag track = trackTag chat.track ∧ orderId.val = chat.orderId ∧
        (S.publicKey sender = S.publicKey chat.customer ∨
          S.publicKey sender = S.publicKey chat.sponsor) ∧
        derivePeerChatKey S sender peer track orderId = chat.customerKey S ∧
        utf16Length text ≤ maxChatText ∧ (p.event trackTag).isSome
    then some text else none
  | .handmade e =>
    if chat.Holds S trackTag e then
      ((S.decrypt e.content (chat.customerKey S)).bind S.parse).bind ChatFields.shortText
    else none

/-- A message of the chat is opened, and nothing else is. -/
theorem open_of_holds (e : ChatEvent) :
    openPeerMessage S (chat.context S trackTag (chat.customerKey S)) e =
      if chat.Holds S trackTag e then
        ((S.decrypt e.content (chat.customerKey S)).bind S.parse).bind ChatFields.shortText
      else none := by
  unfold openPeerMessage PeerChat.context
  by_cases hkind : e.kind = messageKind
  · by_cases haction : tagValue e.tags "action" = some "peer-message"
    · by_cases htrack : tagValue e.tags "t" = some (trackTag chat.track)
      · by_cases horder : extractOrderId e.tags = some chat.orderId
        · by_cases hparty : e.pubkey = S.publicKey chat.customer ∨ e.pubkey = S.publicKey chat.sponsor
          · have hnot : ¬ (e.pubkey ≠ S.publicKey chat.customer ∧
                e.pubkey ≠ S.publicKey chat.sponsor) := fun h => hparty.elim h.1 h.2
            have hholds : chat.Holds S trackTag e := ⟨hkind, haction, htrack, horder, hparty⟩
            simp only [hkind, haction, htrack, horder, hnot, hholds, ne_eq, not_true_eq_false,
              if_false, if_true]
          · have hnot : ¬ chat.Holds S trackTag e := fun h => hparty h.byParty
            simp only [hkind, haction, htrack, horder, not_or.mp hparty, hnot, ne_eq,
              not_true_eq_false, not_false_eq_true, and_self, if_false, if_true]
        · have hnot : ¬ chat.Holds S trackTag e := fun h => horder h.orderId
          simp only [horder, hnot, ne_eq, not_false_eq_true, if_true, if_false, ite_self]
      · have hnot : ¬ chat.Holds S trackTag e := fun h => htrack h.track
        simp only [htrack, hnot, ne_eq, not_false_eq_true, if_true, if_false, ite_self]
    · have hnot : ¬ chat.Holds S trackTag e := fun h => haction h.action
      simp only [haction, hnot, ne_eq, not_false_eq_true, if_true, if_false, ite_self]
  · have hnot : ¬ chat.Holds S trackTag e := fun h => hkind h.kind
    simp only [hkind, hnot, ne_eq, not_false_eq_true, if_true, if_false]

/-- A reader has of a posting what it says. -/
theorem open_event (p : Posted S chat) :
    (p.event trackTag).bind
        (openPeerMessage S (chat.context S trackTag (chat.customerKey S))) = p.said trackTag := by
  cases p with
  | message sender peer track orderId text createdAt =>
    have hevent : (Posted.message (S := S) sender peer track orderId text createdAt :
        Posted S chat).event trackTag = peerMessageTemplate S
          (messageArgs S trackTag chat sender peer track orderId text createdAt) := rfl
    rw [said, hevent]
    cases he : peerMessageTemplate S
        (messageArgs S trackTag chat sender peer track orderId text createdAt) with
    | none =>
      simp only [Option.bind_none, Option.isSome_none, Bool.false_eq_true, and_false, if_false]
    | some e =>
      have hopen := openPeerMessage_event S (chat.context S trackTag (chat.customerKey S))
        (m := messageArgs S trackTag chat sender peer track orderId text createdAt)
        chat.isHex64_app orderId.property he
      rw [Option.bind_some, hopen]
      simp only [messageArgs, PeerChat.context, Option.isSome_some, and_true]
      exact if_congr Iff.rfl rfl rfl
  | handmade e =>
    rw [event, said, Option.bind_some]
    exact open_of_holds trackTag e

end Posted

namespace PeerChat

variable (trackTag : Track → String) (chat : PeerChat K) (text : String) (createdAt : ℤ)

/-- What the customer writes to the sponsor. -/
def byCustomer : Posted S chat :=
  .message chat.customer (S.publicKey chat.sponsor) chat.track
    ⟨chat.orderId, chat.isOrderId_orderId⟩ text createdAt

/-- What the sponsor writes to the customer. -/
def bySponsor : Posted S chat :=
  .message chat.sponsor (S.publicKey chat.customer) chat.track
    ⟨chat.orderId, chat.isOrderId_orderId⟩ text createdAt

theorem said_byCustomer : (chat.byCustomer S text createdAt).said trackTag =
    if utf16Length text ≤ maxChatText ∧ ((chat.byCustomer S text createdAt).event trackTag).isSome
    then some text else none := by
  have hkey : derivePeerChatKey S chat.customer (S.publicKey chat.sponsor) chat.track chat.orderId =
      chat.customerKey S := rfl
  rw [byCustomer, Posted.said]
  simp only [hkey, true_and, true_or]

theorem said_bySponsor : (chat.bySponsor S text createdAt).said trackTag =
    if utf16Length text ≤ maxChatText ∧ ((chat.bySponsor S text createdAt).event trackTag).isSome
    then some text else none := by
  have hkey : derivePeerChatKey S chat.sponsor (S.publicKey chat.customer) chat.track chat.orderId =
      chat.customerKey S := chat.sponsorKey_eq S
  rw [bySponsor, Posted.said]
  simp only [hkey, true_and, or_true]

end PeerChat

/-- What a reader has of everything that was posted. -/
def PeerChat.reading (trackTag : Track → String) (chat : PeerChat K) (reader : PeerReader)
    (history : List (Posted S chat)) : Except String (List String) :=
  (chat.readerKey S reader).map fun key =>
    (history.filterMap (Posted.event trackTag)).filterMap
      (openPeerMessage S (chat.context S trackTag key))

/-- Both parties, and an operator whom either of them called, read the same conversation: whatever
was posted, and by whom, it is what the two parties said in this order, as it was posted.  What one
of them writes to the other is said in it, when it is not too long and can be sealed. -/
theorem peerChat_read (trackTag : Track → String) (chat : PeerChat K) (reader : PeerReader)
    (history : List (Posted S chat)) :
    chat.reading S trackTag reader history = .ok (history.filterMap (Posted.said trackTag)) ∧
    ∀ text createdAt, ∀ p ∈ [chat.byCustomer S text createdAt, chat.bySponsor S text createdAt],
      p.said trackTag =
        if utf16Length text ≤ maxChatText ∧ (p.event trackTag).isSome then some text else none := by
  constructor
  · have hopen : ∀ p : Posted S chat, (p.event trackTag).bind
        (openPeerMessage S (chat.context S trackTag (chat.customerKey S))) = p.said trackTag :=
      fun p => p.open_event trackTag
    rw [PeerChat.reading, chat.readerKey_eq]
    show Except.ok ((history.filterMap (Posted.event trackTag)).filterMap _) = _
    rw [List.filterMap_filterMap]
    simp only [hopen]
  · intro text createdAt p hp
    simp only [List.mem_cons, List.not_mem_nil, or_false] at hp
    rcases hp with rfl | rfl
    · exact chat.said_byCustomer S trackTag text createdAt
    · exact chat.said_bySponsor S trackTag text createdAt

/-- The key of an app. -/
def sampleApp : Pubkey := String.ofList (List.replicate 64 'd')

theorem isHex64_sampleApp : isHex64 sampleApp = true := by
  decide +kernel

theorem isOrderId_sample : isOrderId "abcd" = true := by
  decide +kernel

/-- A chat of two parties with small keys. -/
def sampleTrade : PeerChat ℕ where
  app := sampleApp
  isHex64_app := isHex64_sampleApp
  customer := 6
  sponsor := 15
  track := .ln
  orderId := "abcd"
  isOrderId_orderId := isOrderId_sample

/-- The customer writes; a stranger writes to the sponsor; and the sponsor signs an event by hand, with
a text for the key of the chat in it. -/
def sampleHistory : List (Posted .small sampleTrade) :=
  [sampleTrade.byCustomer .small "paid?" 100,
    .message 9 (PeerCrypto.small.publicKey 15) .ln ⟨"abcd", isOrderId_sample⟩ "buy here" 110,
    .handmade ⟨messageKind, PeerCrypto.small.publicKey 15, 120,
      [["action", "peer-message"], ["t", "ln"], ["a", "38383:app:abcd"]],
      PeerCrypto.sealWith "\x7b\"type\":\"text\",\"content\":\"yes\"\x7d"
        (sampleTrade.customerKey .small)⟩]

theorem callReason_sample : jsTrim "help" ≠ "" ∧ utf16Length "help" ≤ maxChatText := by
  decide +kernel

/-- The operator whom the sponsor called reads the two parties. -/
theorem peerChat_read_sample :
    sampleTrade.reading .small (fun t => t.text) (.calledBySponsor ⟨"help", callReason_sample⟩)
      sampleHistory = .ok ["paid?", "yes"] := by
  rw [(peerChat_read .small (fun t => t.text) sampleTrade _ sampleHistory).1]
  decide +kernel

end LnPay
