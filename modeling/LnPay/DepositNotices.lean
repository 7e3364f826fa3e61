/-
# Deposit notices on the sponsor's device (`customer/src/sponsor/deposit-store.ts`,
`customer/src/sponsor/nostr/service.ts`)

The app tells a sponsor of the deposit: an invoice for each claim, then whether it
was accepted, cancelled or settled.  Relays deliver the notices in any order and
any number of times, so the record keeps when its invoice and when its status were
sent.

What the record should come to is `latestDeposit`: the last invoice, with the last
status that was sent after it.  A status that the record already has is passed
over, and its time with it; so it comes to that exactly when the last status has
not been sent before (`deposit_confluent_iff`).
-/
import LnPay.InboxDispatch
import Mathlib.Data.List.Pairwise
import Mathlib.Data.List.Induction
import Mathlib.Tactic.Linarith

namespace LnPay

/-! ## The store -/

/-- The status of a deposit, as it is shown. -/
inductive DepositStatus
  | accepted | cancelled | settled
  deriving DecidableEq, Repr

/-- `SponsorDeposit`. -/
structure SponsorDeposit where
  bolt11 : String
  status : Option DepositStatus
  /-- `at`: when the invoice was sent -/
  invoiceAt : Option ℚ
  statusAt : Option ℚ
  deriving DecidableEq

/-- `DepositMap`. -/
abbrev DepositMap := OrderId → Option SponsorDeposit

/-- `setDepositBolt11`, on the record of the order. -/
def withBolt11 (bolt11 : String) (createdAt : ℚ) : Option SponsorDeposit → SponsorDeposit
  | none => ⟨bolt11, none, some createdAt, none⟩
  | some existing =>
    if existing.bolt11 = bolt11 then existing
    else if ∃ t ∈ existing.invoiceAt, createdAt < t then existing
    else if existing.status.isSome ∧ ∃ t ∈ existing.statusAt, createdAt ≤ t then
      ⟨bolt11, existing.status, some createdAt, existing.statusAt⟩
    else ⟨bolt11, none, some createdAt, none⟩

/-- `setDepositStatus`, on the record of the order. -/
def withStatus (status : DepositStatus) (createdAt : ℚ) : Option SponsorDeposit → SponsorDeposit
  | none => ⟨"", some status, none, some createdAt⟩
  | some existing =>
    if ∃ t ∈ existing.invoiceAt, createdAt < t then existing
    else if ∃ t ∈ existing.statusAt, createdAt < t then existing
    else if existing.status = some status then existing
    else { existing with status := some status, statusAt := some createdAt }

/-! ## Notices -/

/-- What a notice tells. -/
inductive DepositNews
  | invoice (bolt11 : String)
  | status (status : DepositStatus)
  deriving DecidableEq

/-- A notice of the app about the deposit of an order. -/
structure DepositNotice where
  createdAt : ℚ
  news : DepositNews
  deriving DecidableEq

/-- The setter a notice is handed to. -/
def DepositNotice.note (n : DepositNotice) (r : Option SponsorDeposit) : SponsorDeposit :=
  match n.news with
  | .invoice bolt11 => withBolt11 bolt11 n.createdAt r
  | .status status => withStatus status n.createdAt r

/-- A notice about an order, in the store. -/
def DepositNotice.apply (n : DepositNotice) (orderId : OrderId) (m : DepositMap) : DepositMap :=
  Function.update m orderId (some (n.note (m orderId)))

/-- What the actions of the app tell; an invoice comes in a tag, and not empty. -/
def depositNews (tags : List (List String)) : Option DepositNews :=
  match tagValue tags "action" with
  | some "deposit-required" =>
    ((tagValue tags "bolt11").filter fun bolt11 => bolt11 ≠ "").map .invoice
  | some "deposit-accepted" => some (.status .accepted)
  | some "deposit-cancelled" => some (.status .cancelled)
  | some "deposit-settled" => some (.status .settled)
  | _ => none

/-- The notice an event of the app is, and the order it is about. -/
def depositNoticeOf (appPubkey : Pubkey) (e : RelayEvent) : Option (OrderId × DepositNotice) :=
  if e.pubkey = appPubkey then do
    let news ← depositNews e.tags
    let orderId ← (extractOrderId e.tags).filter fun orderId => orderId ≠ ""
    return (orderId, ⟨e.createdAt, news⟩)
  else none

/-- `handleInboxEvent`, as far as it is about deposits. -/
def handleDepositEvent (appPubkey : Pubkey) (m : DepositMap) (e : RelayEvent) : DepositMap :=
  match depositNoticeOf appPubkey e with
  | some (orderId, n) => n.apply orderId m
  | none => m

/-- Of the events, only the notices count. -/
theorem foldl_handleDepositEvent (appPubkey : Pubkey) (m : DepositMap) (events : List RelayEvent) :
    events.foldl (handleDepositEvent appPubkey) m =
      (events.filterMap (depositNoticeOf appPubkey)).foldl (fun m n => n.2.apply n.1 m) m := by
  induction events generalizing m with
  | nil => rfl
  | cons e events ih =>
    rw [List.foldl_cons, ih, handleDepositEvent]
    cases h : depositNoticeOf appPubkey e with
    | none => rw [List.filterMap_cons_none h]
    | some n => rw [List.filterMap_cons_some h, List.foldl_cons]

/-- The record of the order after these notices. -/
def depositAfter (l : List DepositNotice) : Option SponsorDeposit :=
  l.foldl (fun r n => some (n.note r)) none

@[simp] theorem depositAfter_nil : depositAfter [] = none := rfl

@[simp] theorem depositAfter_append (l : List DepositNotice) (n : DepositNotice) :
    depositAfter (l ++ [n]) = some (n.note (depositAfter l)) := by
  rw [depositAfter, List.foldl_append]
  rfl

/-- The notices of an order change its record only, one after the other. -/
theorem foldl_apply (orderId : OrderId) (m : DepositMap) (l : List DepositNotice)
    (hm : m orderId = none) :
    l.foldl (fun m n => n.apply orderId m) m = Function.update m orderId (depositAfter l) := by
  induction l using List.reverseRecOn with
  | nil => rw [List.foldl_nil, depositAfter_nil, ← hm, Function.update_eq_self]
  | append_singleton l n ih =>
    rw [List.foldl_append, ih, depositAfter_append]
    simp only [List.foldl_cons, List.foldl_nil, DepositNotice.apply, Function.update_self,
      Function.update_idem]

/-! ## What the notices should come to -/

/-- The last invoice, with the last status that was sent after it. -/
def latestDeposit (l : List DepositNotice) : Option SponsorDeposit :=
  l.foldl (fun r n => match n.news with
    | .invoice bolt11 => some ⟨bolt11, none, some n.createdAt, none⟩
    | .status status => r.map fun e => { e with status := some status, statusAt := some n.createdAt })
    none

/-- The notices of an order, as they are sent: at ever later times, beginning with an invoice, and no
invoice twice. -/
structure DepositRounds (l : List DepositNotice) : Prop where
  ordered : l.Pairwise fun m n => m.createdAt < n.createdAt
  opened : ∀ n ∈ l.head?, ∃ bolt11, n.news = .invoice bolt11
  distinct : ∀ m ∈ l, ∀ n ∈ l, ∀ bolt11, m.news = .invoice bolt11 → n.news = .invoice bolt11 → m = n
  named : ∀ n ∈ l, n.news ≠ .invoice ""

/-- The last notice is an invoice, or a status that none before it told. -/
def EndsAfresh (l : List DepositNotice) : Prop :=
  ∀ u ∈ l.getLast?, ∀ status, u.news = .status status → ∀ n ∈ l, n.news = .status status → n = u

/-- Notices are told apart by their times. -/
theorem DepositRounds.eq_of_createdAt {l : List DepositNotice} (h : DepositRounds l)
    {m n : DepositNotice} (hm : m ∈ l) (hn : n ∈ l) (heq : m.createdAt = n.createdAt) : m = n := by
  have hsymm : Std.Symm fun a b : DepositNotice => a.createdAt = b.createdAt → a = b :=
    ⟨fun a b hab hba => (hab hba.symm).symm⟩
  exact List.Pairwise.forall_of_forall
    (R := fun a b : DepositNotice => a.createdAt = b.createdAt → a = b) (fun _ _ _ => rfl)
    (h.ordered.imp fun hlt heq => absurd heq hlt.ne) hm hn heq

/-! ## What a record remembers of the notices it has seen -/

/-- A record after some notices: its invoice is the last of them, its status is one of them, and was
sent after the invoice. -/
structure SponsorDeposit.Remembers (e : SponsorDeposit) (p : List DepositNotice) : Prop where
  invoice : ∀ n ∈ p, ∀ bolt11, n.news = .invoice bolt11 →
    ∃ t, e.invoiceAt = some t ∧ n.createdAt ≤ t
  from_invoice : ∀ t, e.invoiceAt = some t → ⟨t, .invoice e.bolt11⟩ ∈ p
  blank : e.invoiceAt = none → e.bolt11 = ""
  from_status : ∀ t, e.statusAt = some t → ∃ status, e.status = some status ∧ ⟨t, .status status⟩ ∈ p
  unset : e.statusAt = none → e.status = none
  after : ∀ t i, e.statusAt = some t → e.invoiceAt = some i → i ≤ t

/-- Seeing a notice again, or one that does not count any more. -/
theorem SponsorDeposit.Remembers.skip {e : SponsorDeposit} {p : List DepositNotice}
    {n : DepositNotice} (h : e.Remembers p)
    (hn : ∀ bolt11, n.news = .invoice bolt11 → ∃ t, e.invoiceAt = some t ∧ n.createdAt ≤ t) :
    e.Remembers (p ++ [n]) where
  invoice m hm bolt11 hnews := by
    rcases List.mem_append.mp hm with hp | hmn
    · exact h.invoice m hp bolt11 hnews
    · rw [List.mem_singleton.mp hmn] at hnews ⊢
      exact hn bolt11 hnews
  from_invoice t ht := List.mem_append_left _ (h.from_invoice t ht)
  blank := h.blank
  from_status t ht := by
    obtain ⟨status, hstatus, hmem⟩ := h.from_status t ht
    exact ⟨status, hstatus, List.mem_append_left _ hmem⟩
  unset := h.unset
  after := h.after

/-- The first notice. -/
theorem remembers_first (n : DepositNotice) : (n.note none).Remembers [n] := by
  rcases n with ⟨at_, bolt11 | status⟩
  · exact ⟨by simp [DepositNotice.note, withBolt11], by simp [DepositNotice.note, withBolt11],
      by simp [DepositNotice.note, withBolt11], by simp [DepositNotice.note, withBolt11],
      by simp [DepositNotice.note, withBolt11], by simp [DepositNotice.note, withBolt11]⟩
  · exact ⟨by simp [DepositNotice.note, withStatus], by simp [DepositNotice.note, withStatus],
      by simp [DepositNotice.note, withStatus], by simp [DepositNotice.note, withStatus],
      by simp [DepositNotice.note, withStatus], by simp [DepositNotice.note, withStatus]⟩

/-- An invoice that is newer than the one of the record, if it has one. -/
theorem SponsorDeposit.Remembers.newInvoice {e : SponsorDeposit} {p : List DepositNotice}
    {bolt11 : String} {t : ℚ} (h : e.Remembers p) (hnew : ¬∃ i ∈ e.invoiceAt, t < i)
    {status : Option DepositStatus} {statusAt : Option ℚ}
    (hstatus : status = e.status ∧ statusAt = e.statusAt ∧ (∀ u, statusAt = some u → t ≤ u) ∨
      status = none ∧ statusAt = none) :
    (SponsorDeposit.mk bolt11 status (some t) statusAt).Remembers (p ++ [⟨t, .invoice bolt11⟩]) where
  invoice m hm b hnews := by
    refine ⟨t, rfl, ?_⟩
    rcases List.mem_append.mp hm with hp | hmn
    · obtain ⟨i, hi, hle⟩ := h.invoice m hp b hnews
      by_contra hlt
      exact hnew ⟨i, hi, (not_le.mp hlt).trans_le hle⟩
    · rw [List.mem_singleton.mp hmn]
  from_invoice u hu := by
    rw [← Option.some.inj hu]
    simp
  blank hnone := by cases hnone
  from_status u hu := by
    rcases hstatus with ⟨rfl, rfl, -⟩ | ⟨-, rfl⟩
    · obtain ⟨s, hs, hmem⟩ := h.from_status u hu
      exact ⟨s, hs, List.mem_append_left _ hmem⟩
    · cases hu
  unset hnone := by
    rcases hstatus with ⟨rfl, rfl, -⟩ | ⟨rfl, -⟩
    · exact h.unset hnone
    · rfl
  after u i hu hi := by
    rw [← Option.some.inj hi]
    rcases hstatus with ⟨-, -, hle⟩ | ⟨-, rfl⟩
    · exact hle u hu
    · cases hu

/-- A status that is not older than the invoice of the record. -/
theorem SponsorDeposit.Remembers.newStatus {e : SponsorDeposit} {p : List DepositNotice}
    {status : DepositStatus} {t : ℚ} (h : e.Remembers p) (hnew : ¬∃ i ∈ e.invoiceAt, t < i) :
    SponsorDeposit.Remembers { e with status := some status, statusAt := some t }
      (p ++ [⟨t, .status status⟩]) where
  invoice m hm b hnews := by
    rcases List.mem_append.mp hm with hp | hmn
    · exact h.invoice m hp b hnews
    · rw [List.mem_singleton.mp hmn] at hnews
      cases hnews
  from_invoice u hu := List.mem_append_left _ (h.from_invoice u hu)
  blank := h.blank
  from_status u hu := by
    rw [← Option.some.inj hu]
    exact ⟨status, rfl, by simp⟩
  unset hnone := by cases hnone
  after u i hu hi := by
    rw [← Option.some.inj hu]
    by_contra hlt
    exact hnew ⟨i, hi, not_le.mp hlt⟩

/-- One more notice of the rounds, whichever it is. -/
theorem SponsorDeposit.Remembers.note {l p : List DepositNotice} (hl : DepositRounds l)
    (hp : ∀ m ∈ p, m ∈ l) {e : SponsorDeposit} (h : e.Remembers p) {n : DepositNotice} (hn : n ∈ l) :
    (n.note (some e)).Remembers (p ++ [n]) := by
  rcases n with ⟨t, bolt11 | status⟩
  · rw [DepositNotice.note]
    simp only [withBolt11]
    split
    · -- the invoice it has: it has been seen already
      rename_i hsame
      refine h.skip fun b hb => ?_
      cases hi : e.invoiceAt with
      | none =>
        rw [← hsame, h.blank hi] at hn
        exact absurd rfl (hl.named _ hn)
      | some i =>
        have heq := hl.distinct _ hn _ (hp _ (h.from_invoice i hi)) bolt11 rfl (by rw [hsame])
        exact ⟨i, rfl, (congrArg DepositNotice.createdAt heq).le⟩
    · split
      · rename_i hold
        obtain ⟨i, hi, hlt⟩ := hold
        exact h.skip fun b _ => ⟨i, hi, hlt.le⟩
      · rename_i hnew
        split
        · rename_i hkeep
          obtain ⟨-, u, hu, hle⟩ := hkeep
          refine h.newInvoice hnew (Or.inl ⟨rfl, rfl, fun v hv => ?_⟩)
          rw [← Option.some.inj (hu.symm.trans hv)]
          exact hle
        · exact h.newInvoice hnew (Or.inr ⟨rfl, rfl⟩)
  · rw [DepositNotice.note]
    simp only [withStatus]
    have hskip : e.Remembers (p ++ [⟨t, .status status⟩]) := h.skip fun b hb => by cases hb
    split
    · exact hskip
    · rename_i hnew
      split
      · exact hskip
      · split
        · exact hskip
        · exact h.newStatus hnew

/-- After any notices of the rounds, in any order. -/
theorem remembers_depositAfter {l : List DepositNotice} (hl : DepositRounds l)
    {p : List DepositNotice} (hp : ∀ m ∈ p, m ∈ l) (hne : p ≠ []) :
    ∃ e, depositAfter p = some e ∧ e.Remembers p := by
  induction p using List.reverseRecOn with
  | nil => exact absurd rfl hne
  | append_singleton p n ih =>
    rw [depositAfter_append]
    refine ⟨_, rfl, ?_⟩
    by_cases hnil : p = []
    · subst hnil
      exact remembers_first n
    · obtain ⟨e, he, hrem⟩ := ih (fun m hm => hp m (List.mem_append_left _ hm)) hnil
      rw [he]
      exact hrem.note hl (fun m hm => hp m (List.mem_append_left _ hm)) (hp n (by simp))

/-! ## What the notices should come to, notice by notice -/

theorem latestDeposit_invoice (l : List DepositNotice) (t : ℚ) (bolt11 : String) :
    latestDeposit (l ++ [⟨t, .invoice bolt11⟩]) = some ⟨bolt11, none, some t, none⟩ := by
  rw [latestDeposit, List.foldl_append]
  rfl

theorem latestDeposit_status (l : List DepositNotice) (t : ℚ) (status : DepositStatus) :
    latestDeposit (l ++ [⟨t, .status status⟩]) =
      (latestDeposit l).map fun e => { e with status := some status, statusAt := some t } := by
  rw [latestDeposit, List.foldl_append]
  rfl

/-- The rounds up to some notice. -/
theorem DepositRounds.init {l : List DepositNotice} {n : DepositNotice}
    (h : DepositRounds (l ++ [n])) : DepositRounds l where
  ordered := (List.pairwise_append.mp h.ordered).1
  opened m hm := h.opened m (by
    rw [List.head?_append, Option.mem_def.mp hm]
    rfl)
  distinct m hm n' hn' := h.distinct m (List.mem_append_left _ hm) n' (List.mem_append_left _ hn')
  named m hm := h.named m (List.mem_append_left _ hm)

/-- The last notice is the newest. -/
theorem DepositRounds.le_last {l : List DepositNotice} {u : DepositNotice}
    (h : DepositRounds (l ++ [u])) {n : DepositNotice} (hn : n ∈ l ++ [u]) :
    n.createdAt ≤ u.createdAt := by
  rcases List.mem_append.mp hn with hl | hu
  · exact ((List.pairwise_append.mp h.ordered).2.2 n hl u (by simp)).le
  · rw [List.mem_singleton.mp hu]

/-- It has the last invoice. -/
theorem DepositRounds.latest {l : List DepositNotice} (h : DepositRounds l) (hne : l ≠ []) :
    ∃ e t, latestDeposit l = some e ∧ e.invoiceAt = some t ∧ ⟨t, .invoice e.bolt11⟩ ∈ l ∧
      ∀ n ∈ l, ∀ bolt11, n.news = .invoice bolt11 → n.createdAt ≤ t := by
  induction l using List.reverseRecOn with
  | nil => exact absurd rfl hne
  | append_singleton l u ih =>
    have hlast := fun n hn => h.le_last (n := n) hn
    rcases u with ⟨t, bolt11 | status⟩
    · exact ⟨_, t, latestDeposit_invoice l t bolt11, rfl, by simp, fun n hn _ _ => hlast n hn⟩
    · by_cases hnil : l = []
      · subst hnil
        obtain ⟨bolt11, hnews⟩ := h.opened ⟨t, .status status⟩ rfl
        cases hnews
      · obtain ⟨e, i, he, hi, hmem, hmax⟩ := ih h.init hnil
        rw [latestDeposit_status, he]
        refine ⟨_, i, rfl, hi, List.mem_append_left _ hmem, fun n hn b hnews => ?_⟩
        rcases List.mem_append.mp hn with hl | hu
        · exact hmax n hl b hnews
        · rw [List.mem_singleton.mp hu] at hnews
          cases hnews

/-! ## When every order comes to the same -/

/-- A last status that is told for the first time stays, whenever it arrives. -/
theorem keeps_last {l p : List DepositNotice} {t : ℚ} {status : DepositStatus}
    (hl : DepositRounds (l ++ [⟨t, .status status⟩]))
    (hfresh : ∀ n ∈ l ++ [⟨t, .status status⟩], n.news = .status status → n = ⟨t, .status status⟩)
    (hp : ∀ n ∈ p, n ∈ l ++ [⟨t, .status status⟩]) (hu : ⟨t, .status status⟩ ∈ p)
    {e : SponsorDeposit} (he : depositAfter p = some e) :
    e.status = some status ∧ e.statusAt = some t := by
  induction p using List.reverseRecOn generalizing e with
  | nil => cases hu
  | append_singleton p n ih =>
    have hp' := fun m hm => hp m (List.mem_append_left [n] hm)
    have hn := hp n (by simp)
    have hle : n.createdAt ≤ t := hl.le_last hn
    rw [depositAfter_append, Option.some.injEq] at he
    by_cases hseen : ⟨t, .status status⟩ ∈ p
    · obtain ⟨e₀, he₀, -⟩ := remembers_depositAfter hl hp' (List.ne_nil_of_mem hseen)
      obtain ⟨hstatus, hat⟩ := ih hp' hseen he₀
      rw [he₀] at he
      subst he
      rcases n with ⟨v, bolt11 | status'⟩
      · rw [DepositNotice.note]
        simp only [withBolt11]
        split
        · exact ⟨hstatus, hat⟩
        · split
          · exact ⟨hstatus, hat⟩
          · rw [if_pos ⟨by rw [hstatus]; rfl, t, hat, hle⟩]
            exact ⟨hstatus, hat⟩
      · rw [DepositNotice.note]
        simp only [withStatus]
        split
        · exact ⟨hstatus, hat⟩
        · split
          · exact ⟨hstatus, hat⟩
          · rename_i hold
            split
            · exact ⟨hstatus, hat⟩
            · -- no other notice is as new as the last one
              rename_i hother
              have hge : t ≤ v := by
                by_contra hlt
                exact hold ⟨t, hat, not_le.mp hlt⟩
              have heq := hl.eq_of_createdAt hn (List.mem_append_right l List.mem_cons_self)
                (le_antisymm hle hge)
              cases heq
              exact absurd hstatus hother
    · have heq : n = ⟨t, .status status⟩ := by
        rcases List.mem_append.mp hu with hin | hin
        · exact absurd hin hseen
        · exact (List.mem_singleton.mp hin).symm
      subst heq
      by_cases hnil : p = []
      · subst hnil
        subst he
        exact ⟨rfl, rfl⟩
      · obtain ⟨e₀, he₀, hrem⟩ := remembers_depositAfter hl hp' hnil
        rw [he₀] at he
        subst he
        rw [DepositNotice.note]
        simp only [withStatus]
        rw [if_neg, if_neg, if_neg]
        · exact ⟨rfl, rfl⟩
        · intro hsame
          cases hat : e₀.statusAt with
          | none =>
            rw [hrem.unset hat] at hsame
            cases hsame
          | some v =>
            obtain ⟨s, hs, hmem⟩ := hrem.from_status v hat
            rw [hsame, Option.some.injEq] at hs
            subst hs
            have hv := hfresh _ (hp' _ hmem) rfl
            rw [hv] at hmem
            exact hseen hmem
        · rintro ⟨v, hv, hlt⟩
          obtain ⟨s, -, hmem⟩ := hrem.from_status v hv
          exact absurd (hl.le_last (hp' _ hmem)) (not_le.mpr hlt)
        · rintro ⟨i, hi, hlt⟩
          exact absurd (hl.le_last (hp' _ (hrem.from_invoice i hi))) (not_le.mpr hlt)

/-- After all the notices, the record has the last invoice. -/
theorem lastInvoice_eq {l p : List DepositNotice} (hl : DepositRounds l)
    (hp : ∀ n, n ∈ p ↔ n ∈ l) {e e' : SponsorDeposit} (hrem : e.Remembers p) {t : ℚ}
    (ht : e'.invoiceAt = some t) (hmem : ⟨t, .invoice e'.bolt11⟩ ∈ l)
    (hmax : ∀ n ∈ l, ∀ bolt11, n.news = .invoice bolt11 → n.createdAt ≤ t) :
    e.invoiceAt = e'.invoiceAt ∧ e.bolt11 = e'.bolt11 := by
  obtain ⟨i, hi, hle⟩ := hrem.invoice _ ((hp _).mpr hmem) _ rfl
  have hfrom := (hp _).mp (hrem.from_invoice i hi)
  have hge : i ≤ t := hmax _ hfrom _ rfl
  have heq := hl.eq_of_createdAt hfrom hmem (le_antisymm hge hle)
  simp only [DepositNotice.mk.injEq, DepositNews.invoice.injEq] at heq
  exact ⟨by rw [hi, ht, heq.1], heq.2⟩

theorem depositAfter_eq_latest {l p : List DepositNotice} (hl : DepositRounds l)
    (hends : EndsAfresh l) (hp : ∀ n, n ∈ p ↔ n ∈ l) : depositAfter p = latestDeposit l := by
  induction l using List.reverseRecOn with
  | nil =>
    have hnil : p = [] := List.eq_nil_iff_forall_not_mem.mpr fun n hn => by
      cases (hp n).mp hn
    rw [hnil]
    rfl
  | append_singleton l u _ =>
    have hpne : p ≠ [] := List.ne_nil_of_mem ((hp u).mpr (by simp))
    obtain ⟨e, he, hrem⟩ := remembers_depositAfter hl (fun n hn => (hp n).mp hn) hpne
    obtain ⟨e', t, he', ht, hmem, hmax⟩ := hl.latest (by simp)
    obtain ⟨hinvoice, hbolt⟩ := lastInvoice_eq hl hp hrem ht hmem hmax
    rw [he, he', Option.some.injEq]
    suffices hstatus : e.status = e'.status ∧ e.statusAt = e'.statusAt by
      rcases e with ⟨b, s, i, a⟩
      rcases e' with ⟨b', s', i', a'⟩
      simp only at hinvoice hbolt hstatus
      rw [hinvoice, hbolt, hstatus.1, hstatus.2]
    rcases u with ⟨v, bolt11 | status⟩
    · -- no status was sent after the last notice
      rw [latestDeposit_invoice, Option.some.injEq] at he'
      subst he'
      have hat : e.statusAt = none := by
        cases hat : e.statusAt with
        | none => rfl
        | some w =>
          obtain ⟨s, -, hin⟩ := hrem.from_status w hat
          have hw : w ≤ v := hl.le_last ((hp _).mp hin)
          have hv := hrem.after w v hat hinvoice
          have heq := hl.eq_of_createdAt ((hp _).mp hin)
            (List.mem_append_right l List.mem_cons_self) (le_antisymm hw hv)
          cases heq
      exact ⟨hrem.unset hat, hat⟩
    · have hfresh := hends ⟨v, .status status⟩ (by simp) status rfl
      obtain ⟨hs, ha⟩ := keeps_last hl hfresh (fun n hn => (hp n).mp hn) ((hp _).mpr (by simp)) he
      rw [latestDeposit_status] at he'
      obtain ⟨e₀, -, rfl⟩ := Option.map_eq_some_iff.mp he'
      exact ⟨hs, ha⟩

/-! ## When some order does not -/

/-- The time of a status comes from a notice. -/
theorem statusAt_note {n : DepositNotice} {e : SponsorDeposit} {t : ℚ}
    (h : (n.note (some e)).statusAt = some t) : e.statusAt = some t ∨ n.createdAt = t := by
  rcases n with ⟨v, bolt11 | status⟩
  · simp only [DepositNotice.note, withBolt11] at h
    split at h
    · exact Or.inl h
    · split at h
      · exact Or.inl h
      · split at h
        · exact Or.inl h
        · cases h
  · simp only [DepositNotice.note, withStatus] at h
    split at h
    · exact Or.inl h
    · split at h
      · exact Or.inl h
      · split at h
        · exact Or.inl h
        · exact Or.inr (Option.some.inj h)

/-- The notices that follow cannot bring back a time that is not theirs. -/
theorem statusAt_foldl {l : List DepositNotice} {t : ℚ} (hl : ∀ n ∈ l, n.createdAt ≠ t)
    {e : SponsorDeposit} (he : e.statusAt ≠ some t) :
    ∃ e', l.foldl (fun r n => some (DepositNotice.note n r)) (some e) = some e' ∧
      e'.statusAt ≠ some t := by
  induction l generalizing e with
  | nil => exact ⟨e, rfl, he⟩
  | cons n l ih =>
    rw [List.foldl_cons]
    refine ih (fun m hm => hl m (List.mem_cons_of_mem _ hm)) fun h => ?_
    rcases statusAt_note h with h | h
    · exact he h
    · exact hl n List.mem_cons_self h

/-- A status that was told before, and is told again at the end: when the two come first, the time
of the second is lost. -/
theorem exists_depositAfter_ne {l : List DepositNotice} (hl : DepositRounds l)
    (h : ¬EndsAfresh l) :
    ∃ p, (∀ n, n ∈ p ↔ n ∈ l) ∧ depositAfter p ≠ latestDeposit l := by
  simp only [EndsAfresh, not_forall] at h
  obtain ⟨u, hu, status, hstatus, v, hv, hvs, hne⟩ := h
  obtain ⟨init, rfl⟩ := List.getLast?_eq_some_iff.mp hu
  rcases u with ⟨t, news⟩
  rcases v with ⟨t', news'⟩
  obtain rfl : news = .status status := hstatus
  obtain rfl : news' = .status status := hvs
  have hlt : t' < t := by
    refine lt_of_le_of_ne (hl.le_last hv) fun heq => hne ?_
    exact hl.eq_of_createdAt hv (by simp) heq
  refine ⟨⟨t', .status status⟩ :: ⟨t, .status status⟩ ::
    (init ++ [(⟨t, .status status⟩ : DepositNotice)]).filter
      fun n => n ≠ (⟨t, .status status⟩ : DepositNotice), fun n => ?_, ?_⟩
  · simp only [List.mem_cons, List.mem_filter, decide_eq_true_eq]
    constructor
    · rintro (rfl | rfl | ⟨hn, -⟩)
      · exact hv
      · simp
      · exact hn
    · intro hn
      by_cases heq : n = (⟨t, .status status⟩ : DepositNotice)
      · exact Or.inr (Or.inl heq)
      · exact Or.inr (Or.inr ⟨hn, heq⟩)
  · -- the second is passed over, having the status of the first
    have htwo : (DepositNotice.mk t (.status status)).note
        (some ((DepositNotice.mk t' (.status status)).note none)) = ⟨"", some status, none, some t'⟩ := by
      simp [DepositNotice.note, withStatus]
    rw [depositAfter, List.foldl_cons, List.foldl_cons, htwo, latestDeposit_status]
    have hrest : ∀ n ∈ (init ++ [(⟨t, .status status⟩ : DepositNotice)]).filter
        fun n => n ≠ (⟨t, .status status⟩ : DepositNotice), n.createdAt ≠ t := fun n hn heq => by
      obtain ⟨hn, hother⟩ := List.mem_filter.mp hn
      exact of_decide_eq_true hother (hl.eq_of_createdAt hn (by simp) heq)
    obtain ⟨e', he', hat⟩ := statusAt_foldl hrest (e := ⟨"", some status, none, some t'⟩)
      fun h => hlt.ne (Option.some.inj h)
    rw [he']
    intro heq
    obtain ⟨e₀, -, rfl⟩ := Option.map_eq_some_iff.mp heq.symm
    exact hat rfl

/-- **When the notices of a deposit may come in any order.**  However they arrive, and however often,
the record comes to the last invoice and the last status after it, exactly when the last notice is an
invoice or a status that was not told before. -/
theorem deposit_confluent_iff (orderId : OrderId) (m : DepositMap) (hm : m orderId = none)
    (l : List DepositNotice) (hl : DepositRounds l) :
    (∀ p : List DepositNotice, (∀ n, n ∈ p ↔ n ∈ l) →
      p.foldl (fun m n => n.apply orderId m) m orderId =
        l.foldl (fun m n => n.apply orderId m) m orderId ∧
      p.foldl (fun m n => n.apply orderId m) m orderId = latestDeposit l) ↔ EndsAfresh l := by
  have hrun : ∀ p : List DepositNotice,
      p.foldl (fun m n => n.apply orderId m) m orderId = depositAfter p := fun p => by
    rw [foldl_apply orderId m p hm, Function.update_self]
  constructor
  · intro h
    by_contra hends
    obtain ⟨p, hp, hne⟩ := exists_depositAfter_ne hl hends
    exact hne ((hrun p).symm.trans (h p hp).2)
  · intro hends p hp
    rw [hrun p, hrun l, depositAfter_eq_latest hl hends hp,
      depositAfter_eq_latest hl hends fun n => Iff.rfl]
    exact ⟨rfl, rfl⟩

/-! ### Two claims, both given up -/

/-- The invoice of a claim, the refund, the invoice of the next claim, and its refund. -/
def twoClaims : List DepositNotice :=
  [⟨1, .invoice "lnbc1"⟩, ⟨2, .status .cancelled⟩, ⟨3, .invoice "lnbc2"⟩, ⟨4, .status .cancelled⟩]

theorem rounds_twoClaims : DepositRounds twoClaims where
  ordered := by decide
  opened n hn := ⟨"lnbc1", by rw [← Option.some.inj hn]⟩
  distinct := by
    intro m hm n hn bolt11 hbm hbn
    simp only [twoClaims, List.mem_cons, List.not_mem_nil, or_false] at hm hn
    rcases hm with rfl | rfl | rfl | rfl <;> rcases hn with rfl | rfl | rfl | rfl <;>
      first
        | rfl
        | (cases hbm; done)
        | (cases hbn; done)
        | (rw [← hbm] at hbn; exact absurd hbn (by decide))
  named := by decide

/-- The second refund comes before the second invoice. -/
theorem deposit_not_confluent :
    ¬∀ (orderId : OrderId) (m : DepositMap), m orderId = none → ∀ l, DepositRounds l →
      ∀ p : List DepositNotice, (∀ n, n ∈ p ↔ n ∈ l) →
        p.foldl (fun m n => n.apply orderId m) m orderId =
          l.foldl (fun m n => n.apply orderId m) m orderId := by
  intro hclaim
  have h := hclaim "ord1" (fun _ => none) rfl twoClaims rounds_twoClaims
    [⟨1, .invoice "lnbc1"⟩, ⟨2, .status .cancelled⟩, ⟨4, .status .cancelled⟩, ⟨3, .invoice "lnbc2"⟩]
    (fun n => by
      simp only [twoClaims, List.mem_cons, List.not_mem_nil, or_false]
      tauto)
  rw [foldl_apply _ _ _ rfl, foldl_apply _ _ _ rfl, Function.update_self, Function.update_self] at h
  revert h
  decide

/-- Up to the second invoice, any order will do. -/
theorem deposit_confluent_iff_sample :
    EndsAfresh twoClaims.dropLast ∧
    ((∀ p : List DepositNotice, (∀ n, n ∈ p ↔ n ∈ twoClaims.dropLast) →
      p.foldl (fun m n => n.apply "ord1" m) (fun _ => none) "ord1" =
        twoClaims.dropLast.foldl (fun m n => n.apply "ord1" m) (fun _ => none) "ord1" ∧
      p.foldl (fun m n => n.apply "ord1" m) (fun _ => none) "ord1" =
        latestDeposit twoClaims.dropLast) ↔ EndsAfresh twoClaims.dropLast) := by
  refine ⟨fun u hu status hstatus => ?_, ?_⟩
  · rw [← Option.some.inj hu] at hstatus
    cases hstatus
  · exact deposit_confluent_iff "ord1" (fun _ => none) rfl twoClaims.dropLast
      (DepositRounds.init (n := ⟨4, .status .cancelled⟩) rounds_twoClaims)

end LnPay
