/-
# Calling the Lightning node (`daemon/src/ln/lnd.ts`)

A response comes in pieces, wherever the network cuts it, and the connection may
break at any point.  A call is settled once: by the first line, where only that is
wanted, or by the end of the response, or by the error.  Nobody listens for a
response that the node breaks off in good order, so such a call stays open.

* `call` is fed the pieces one by one, `answerOf` looks at the whole text,
* `call_eq`: they agree, so the cuts do not matter,
* `payment_answers` says what the node must have said for each answer about a payment.
-/
import LnPay.Explorer

namespace LnPay

namespace Lnd

open Explorer (Json Language)

/-! ## One call -/

/-- How a response ends: whole, with an error of the request (a timeout is one too), or cut short by a
connection that the node closes in mid-body, which the request does not hear of. -/
inductive CallEnd
  | ended
  | failed (message : String)
  | cut

/-- A response: the status, the pieces of its text, and how it ends. -/
structure Response where
  status : ℕ
  chunks : List String
  ending : CallEnd

/-- What a call rejects with: `LndError`, or another error. -/
inductive CallError
  | lnd (status : ℕ) (body : String)
  | other (message : String)

section Call

variable (js : Language)

/-- `JSON.parse`. -/
def parseJson (text : String) : Except CallError Json :=
  match js.parse text with
  | some value => .ok value
  | none => .error (.other "SyntaxError")

/-- `text.slice(0, text.indexOf('\n'))`. -/
def firstLineOf (text : String) : String := String.ofList (text.toList.takeWhile (· ≠ '\n'))

/-- The last line of a text that is not empty, or `{}`. -/
def lastLineOf (text : String) : String :=
  ((((js.trim text).toList.splitOn '\n').filter (· ≠ [])).getLast?.map String.ofList).getD "{}"

/-- A call under way: the text so far, and what it was settled with. -/
structure Reader where
  text : String
  settled : Option (Except CallError Json)

/-- A piece arrives. -/
def Reader.onData (firstLine : Bool) (status : ℕ) (r : Reader) (chunk : String) : Reader :=
  let text := r.text ++ chunk
  ⟨text, r.settled.or
    (if firstLine = true ∧ '\n' ∈ text.toList ∧ status < 300 then some (parseJson js (firstLineOf text))
      else none)⟩

/-- The response ends; `none` is a call that is never settled. -/
def Reader.onEnd (status : ℕ) (ending : CallEnd) (r : Reader) : Option (Except CallError Json) :=
  r.settled.or
    (match ending with
      | .failed message => some (.error (.other message))
      | .ended =>
        some (if 300 ≤ status then .error (.lnd status r.text)
          else parseJson js (lastLineOf js r.text))
      | .cut => none)

/-- `call`. -/
def call (firstLine : Bool) (res : Response) : Option (Except CallError Json) :=
  Reader.onEnd js res.status res.ending
    (res.chunks.foldl (Reader.onData js firstLine res.status) ⟨"", none⟩)

/-! ## The whole text -/

/-- The text of a response. -/
def Response.text (res : Response) : String := res.chunks.foldl (· ++ ·) ""

/-- The answer that a text comes to. -/
def answerOf (firstLine : Bool) (status : ℕ) (text : String) (ending : CallEnd) :
    Option (Except CallError Json) :=
  Reader.onEnd js status ending
    ⟨text, if firstLine = true ∧ '\n' ∈ text.toList ∧ status < 300 then
      some (parseJson js (firstLineOf text)) else none⟩

/-- A line that is there stays the first one. -/
theorem firstLineOf_append {text : String} (h : '\n' ∈ text.toList) (chunk : String) :
    firstLineOf (text ++ chunk) = firstLineOf text := by
  have htake : ∀ cs : List Char, '\n' ∈ cs →
      (cs ++ chunk.toList).takeWhile (· ≠ '\n') = cs.takeWhile (· ≠ '\n') := by
    intro cs hcs
    induction cs with
    | nil => cases hcs
    | cons c cs ih =>
      by_cases hc : c = '\n'
      · simp [hc]
      · have hrest : '\n' ∈ cs := (List.mem_cons.mp hcs).resolve_left (Ne.symm hc)
        simp only [List.cons_append, List.takeWhile_cons, ih hrest]
  rw [firstLineOf, String.toList_append, htake _ h, firstLineOf]

/-- A piece leaves the reader settled as the text so far says. -/
theorem onData_eq (firstLine : Bool) (status : ℕ) (text chunk : String) :
    Reader.onData js firstLine status
      ⟨text, if firstLine = true ∧ '\n' ∈ text.toList ∧ status < 300 then
        some (parseJson js (firstLineOf text)) else none⟩ chunk =
      ⟨text ++ chunk, if firstLine = true ∧ '\n' ∈ (text ++ chunk).toList ∧ status < 300 then
        some (parseJson js (firstLineOf (text ++ chunk))) else none⟩ := by
  unfold Reader.onData
  by_cases hline : firstLine = true ∧ '\n' ∈ text.toList ∧ status < 300
  · have hmore : firstLine = true ∧ '\n' ∈ (text ++ chunk).toList ∧ status < 300 := by
      refine ⟨hline.1, ?_, hline.2.2⟩
      rw [String.toList_append]
      exact List.mem_append_left _ hline.2.1
    simp only [if_pos hline, if_pos hmore, firstLineOf_append hline.2.1, Option.or_some]
    rfl
  · simp only [if_neg hline, Option.none_or]

/-- However a response is cut, its call comes to the answer of the whole text. -/
theorem call_eq (firstLine : Bool) (res : Response) :
    call js firstLine res = answerOf js firstLine res.status res.text res.ending := by
  have hfold : ∀ (chunks : List String) (text : String),
      chunks.foldl (Reader.onData js firstLine res.status)
        ⟨text, if firstLine = true ∧ '\n' ∈ text.toList ∧ res.status < 300 then
          some (parseJson js (firstLineOf text)) else none⟩ =
        ⟨chunks.foldl (· ++ ·) text,
          if firstLine = true ∧ '\n' ∈ (chunks.foldl (· ++ ·) text).toList ∧ res.status < 300 then
            some (parseJson js (firstLineOf (chunks.foldl (· ++ ·) text))) else none⟩ := by
    intro chunks
    induction chunks with
    | nil => exact fun _ => rfl
    | cons chunk chunks ih =>
      intro text
      rw [List.foldl_cons, onData_eq, ih]
      rfl
  have hstart : (⟨"", none⟩ : Reader) =
      ⟨"", if firstLine = true ∧ '\n' ∈ "".toList ∧ res.status < 300 then
        some (parseJson js (firstLineOf "")) else none⟩ := by
    rw [if_neg]
    rintro ⟨-, hmem, -⟩
    exact absurd hmem (by decide)
  rw [call, hstart, hfold, answerOf, Response.text]

end Call

/-! ## Payments -/

/-- `PayStatus`. -/
inductive PayStatus
  | succeeded
  | inFlight
  | failed
  deriving DecidableEq, Repr

/-- `payStatus`. -/
def payStatus (status : Option Json) : PayStatus :=
  match Explorer.asString status with
  | some "SUCCEEDED" => .succeeded
  | some "FAILED" => .failed
  | _ => .inFlight

/-- `value.key`, which throws on `null`. -/
def property (value : Json) (key : String) : Except CallError (Option Json) :=
  match value with
  | .null => .error (.other "TypeError")
  | _ => .ok (value.field key)

/-- Whether a text contains another, whatever the case of its letters. -/
def saysText (body words : String) : Bool :=
  body.toLower.toList.tails.any fun rest => words.toList.isPrefixOf rest

/-- `/isn't initiated|not found/i`. -/
def saysNotTried (body : String) : Bool := saysText body "isn't initiated" || saysText body "not found"

section Payments

variable (js : Language)

/-- What `trackPayment` makes of the answer; `none` is a payment that was never tried. -/
def trackAnswer : Except CallError Json → Except CallError (Option PayStatus)
  | .ok value =>
    (property value "result").map fun result =>
      some (payStatus (result.bind fun r => r.field "status"))
  | .error (.lnd status body) =>
    if saysNotTried body then .ok none else .error (.lnd status body)
  | .error e => .error e

/-- `trackPayment`. -/
def trackPayment (res : Response) : Option (Except CallError (Option PayStatus)) :=
  (call js true res).map trackAnswer

/-- What `payInvoice` makes of the answer: the status, and the reason of a payment that failed. -/
def payAnswer (answer : Except CallError Json) : Except CallError (PayStatus × Option Json) :=
  answer.bind fun value =>
    (property value "result").map fun result =>
      match payStatus (result.bind fun r => r.field "status") with
      | .failed => (.failed, result.bind fun r => r.field "failure_reason")
      | status => (status, none)

/-- `payInvoice`. -/
def payInvoice (res : Response) : Option (Except CallError (PayStatus × Option Json)) :=
  (call js false res).map payAnswer

/-- A line that decides a call: the first one where only that is wanted and it came whole, or the
last one of a response that ended. -/
def Decides (firstLine : Bool) (res : Response) (line : String) : Prop :=
  res.status < 300 ∧
    ((firstLine = true ∧ '\n' ∈ res.text.toList ∧ line = firstLineOf res.text) ∨
      (¬ (firstLine = true ∧ '\n' ∈ res.text.toList) ∧ res.ending = .ended ∧
        line = lastLineOf js res.text))

/-- A call is answered by the line that decides it, and by nothing else. -/
theorem call_ok_iff {firstLine : Bool} {res : Response} {value : Json} :
    call js firstLine res = some (.ok value) ↔
      ∃ line, Decides js firstLine res line ∧ js.parse line = some value := by
  rw [call_eq]
  unfold answerOf Reader.onEnd
  have hparse : ∀ line, parseJson js line = .ok value ↔ js.parse line = some value := by
    intro line
    unfold parseJson
    cases js.parse line with
    | none => simp
    | some v => simp
  by_cases hline : firstLine = true ∧ '\n' ∈ res.text.toList ∧ res.status < 300
  · rw [if_pos hline, Option.some_or, Option.some_inj, hparse]
    constructor
    · exact fun h => ⟨_, ⟨hline.2.2, .inl ⟨hline.1, hline.2.1, rfl⟩⟩, h⟩
    · rintro ⟨line, ⟨-, ⟨-, -, rfl⟩ | ⟨hnot, -⟩⟩, h⟩
      · exact h
      · exact absurd ⟨hline.1, hline.2.1⟩ hnot
  · rw [if_neg hline, Option.none_or]
    have hdecides : ∀ line, Decides js firstLine res line →
        res.ending = .ended ∧ line = lastLineOf js res.text := by
      rintro line ⟨hst, ⟨hf, hmem, -⟩ | ⟨-, hend, hlast⟩⟩
      · exact absurd ⟨hf, hmem, hst⟩ hline
      · exact ⟨hend, hlast⟩
    cases hend : res.ending with
    | failed message =>
      constructor
      · exact fun h => by cases h
      · rintro ⟨line, hd, -⟩
        obtain ⟨he, -⟩ := hdecides line hd
        rw [hend] at he
        cases he
    | cut =>
      constructor
      · exact fun h => by cases h
      · rintro ⟨line, hd, -⟩
        obtain ⟨he, -⟩ := hdecides line hd
        rw [hend] at he
        cases he
    | ended =>
      dsimp only
      rw [Option.some_inj]
      by_cases hst : 300 ≤ res.status
      · rw [if_pos hst]
        constructor
        · exact fun h => by cases h
        · rintro ⟨line, ⟨hlt, -⟩, -⟩
          omega
      · rw [if_neg hst, hparse]
        constructor
        · exact fun h => ⟨_, ⟨by omega, .inr ⟨fun hf => hline ⟨hf.1, hf.2, by omega⟩, hend, rfl⟩⟩, h⟩
        · rintro ⟨line, hd, h⟩
          exact (hdecides line hd).2 ▸ h

/-- The same with something that is asked of the answer. -/
theorem call_ok_and_iff {firstLine : Bool} {res : Response} {Q : Json → Prop} :
    (∃ value, call js firstLine res = some (.ok value) ∧ Q value) ↔
      ∃ line value, Decides js firstLine res line ∧ js.parse line = some value ∧ Q value := by
  constructor
  · rintro ⟨value, hcall, hq⟩
    obtain ⟨line, hd, hp⟩ := (call_ok_iff js).mp hcall
    exact ⟨line, value, hd, hp, hq⟩
  · rintro ⟨line, value, hd, hp, hq⟩
    exact ⟨value, (call_ok_iff js).mpr ⟨line, hd, hp⟩, hq⟩

/-- A call is refused by the node with what it said, after the whole of it. -/
theorem call_lnd_iff (firstLine : Bool) {res : Response} {status : ℕ} {body : String} :
    call js firstLine res = some (.error (.lnd status body)) ↔
      res.ending = .ended ∧ 300 ≤ res.status ∧ status = res.status ∧ body = res.text := by
  have hparse : ∀ line, parseJson js line ≠ .error (.lnd status body) := by
    intro line
    unfold parseJson
    cases js.parse line with
    | none => simp
    | some v => simp
  rw [call_eq]
  unfold answerOf Reader.onEnd
  by_cases hline : firstLine = true ∧ '\n' ∈ res.text.toList ∧ res.status < 300
  · rw [if_pos hline, Option.some_or, Option.some_inj]
    constructor
    · exact fun h => absurd h (hparse _)
    · rintro ⟨-, hst, -⟩
      omega
  · rw [if_neg hline, Option.none_or]
    cases res.ending with
    | failed message => simp
    | cut => simp
    | ended =>
      dsimp only
      rw [Option.some_inj]
      by_cases hst : 300 ≤ res.status
      · rw [if_pos hst]
        simp only [Except.error.injEq, CallError.lnd.injEq, true_and, hst]
        exact ⟨fun h => ⟨h.1.symm, h.2.symm⟩, fun h => ⟨h.1.symm, h.2.symm⟩⟩
      · rw [if_neg hst]
        constructor
        · exact fun h => absurd h (hparse _)
        · rintro ⟨-, hge, -⟩
          exact absurd hge hst

/-- A call stays open when the node breaks the response off before the line that would do. -/
theorem call_none_iff (firstLine : Bool) (res : Response) : call js firstLine res = none ↔
    res.ending = .cut ∧ ¬ (firstLine = true ∧ '\n' ∈ res.text.toList ∧ res.status < 300) := by
  rw [call_eq]
  unfold answerOf Reader.onEnd
  by_cases hline : firstLine = true ∧ '\n' ∈ res.text.toList ∧ res.status < 300
  · rw [if_pos hline]
    exact ⟨fun h => (by cases h), fun h => absurd hline h.2⟩
  · rw [if_neg hline, Option.none_or]
    cases res.ending with
    | failed message => simp
    | ended => simp
    | cut => simp [hline]

/-- What an answer says of a payment; it says nothing when it is `null`. -/
def statusOf (value : Json) : Option PayStatus :=
  ((property value "result").map fun result =>
    payStatus (result.bind fun r => r.field "status")).toOption

/-- A payment is found never tried when the node refuses and says so. -/
theorem trackPayment_none_iff (res : Response) : trackPayment js res = some (.ok none) ↔
    res.ending = .ended ∧ 300 ≤ res.status ∧ saysNotTried res.text = true := by
  have hlnd : trackPayment js res = some (.ok none) ↔
      ∃ status body, call js true res = some (.error (.lnd status body)) ∧
        saysNotTried body = true := by
    rw [trackPayment, Option.map_eq_some_iff]
    constructor
    · rintro ⟨answer, hcall, h⟩
      cases answer with
      | ok value =>
        obtain ⟨result, -, h⟩ := Except.map_eq_ok_iff.mp h
        cases h
      | error e =>
        cases e with
        | other message => cases h
        | lnd status body =>
          by_cases htried : saysNotTried body = true
          · exact ⟨status, body, hcall, htried⟩
          · rw [trackAnswer, if_neg htried] at h
            cases h
    · rintro ⟨status, body, hcall, htried⟩
      exact ⟨_, hcall, by rw [trackAnswer, if_pos htried]⟩
  rw [hlnd]
  constructor
  · rintro ⟨status, body, hcall, htried⟩
    obtain ⟨hend, hst, rfl, rfl⟩ := (call_lnd_iff js true).mp hcall
    exact ⟨hend, hst, htried⟩
  · rintro ⟨hend, hst, htried⟩
    exact ⟨_, _, (call_lnd_iff js true).mpr ⟨hend, hst, rfl, rfl⟩, htried⟩

/-- It has a status when a line that decides says so. -/
theorem trackPayment_some_iff (res : Response) (status : PayStatus) :
    trackPayment js res = some (.ok (some status)) ↔
      ∃ line value, Decides js true res line ∧ js.parse line = some value ∧
        statusOf value = some status := by
  have hmap : ∀ x : Except CallError (Option Json),
      (x.map fun result => some (payStatus (result.bind fun r => r.field "status"))) =
          .ok (some status) ↔
        (x.map fun result => payStatus (result.bind fun r => r.field "status")).toOption =
          some status := by
    intro x
    cases x with
    | error e => simp [Except.map, Except.toOption]
    | ok v => simp [Except.map, Except.toOption]
  rw [← call_ok_and_iff, trackPayment, Option.map_eq_some_iff]
  constructor
  · rintro ⟨answer, hcall, h⟩
    cases answer with
    | ok value => exact ⟨value, hcall, (hmap _).mp h⟩
    | error e =>
      cases e with
      | other message => cases h
      | lnd st body =>
        by_cases htried : saysNotTried body = true
        · rw [trackAnswer, if_pos htried] at h
          cases h
        · rw [trackAnswer, if_neg htried] at h
          cases h
  · rintro ⟨value, hcall, h⟩
    exact ⟨_, hcall, (hmap _).mpr h⟩

theorem payInvoice_iff (res : Response) (status : PayStatus) :
    (payInvoice js res).map (Except.map Prod.fst) = some (.ok status) ↔
      ∃ line value, Decides js false res line ∧ js.parse line = some value ∧
        statusOf value = some status := by
  have hok : ∀ value, (payAnswer (.ok value)).map Prod.fst = .ok status ↔
      statusOf value = some status := by
    intro value
    simp only [payAnswer, Except.bind, statusOf]
    cases property value "result" with
    | error e => simp [Except.map, Except.toOption]
    | ok result =>
      simp only [Except.map, Except.toOption, Except.ok.injEq, Option.some.injEq]
      cases payStatus (result.bind fun r => r.field "status") <;> simp
  rw [← call_ok_and_iff, payInvoice, Option.map_map, Option.map_eq_some_iff]
  constructor
  · rintro ⟨answer, hcall, h⟩
    cases answer with
    | ok value => exact ⟨value, hcall, (hok value).mp h⟩
    | error e => cases h
  · rintro ⟨value, hcall, h⟩
    exact ⟨_, hcall, (hok value).mpr h⟩

/-- However the network cuts a response, and wherever it breaks off: a payment counts as never tried
exactly when the node refused, said so and ended; and it counts as paid, failed or under way exactly
when a line that decides the call says so, which for the payment itself is the last one of a
response that ended, and for a question about it the first one that came whole.  The call is never
settled exactly when the node closes the connection in good order before that. -/
theorem payment_answers (res : Response) :
    (trackPayment js res = some (.ok none) ↔
      res.ending = .ended ∧ 300 ≤ res.status ∧ saysNotTried res.text = true) ∧
    (∀ status,
      (trackPayment js res = some (.ok (some status)) ↔
        ∃ line value, Decides js true res line ∧ js.parse line = some value ∧
          statusOf value = some status) ∧
      ((payInvoice js res).map (Except.map Prod.fst) = some (.ok status) ↔
        ∃ line value, Decides js false res line ∧ js.parse line = some value ∧
          statusOf value = some status)) ∧
    (trackPayment js res = none ↔
      res.ending = .cut ∧ ¬ ('\n' ∈ res.text.toList ∧ res.status < 300)) ∧
    (payInvoice js res = none ↔ res.ending = .cut) := by
  refine ⟨trackPayment_none_iff js res, fun status =>
    ⟨trackPayment_some_iff js res status, payInvoice_iff js res status⟩, ?_, ?_⟩
  · rw [trackPayment, Option.map_eq_none_iff, call_none_iff]
    simp
  · rw [payInvoice, Option.map_eq_none_iff, call_none_iff]
    simp

end Payments

end Lnd

end LnPay
