/-
# The subscription guard (`shared/src/subscription-guard.ts`)

An app opens its relay subscriptions through a guard.  Opening takes a while,
and meanwhile the app may go to the background and come back: `stop` and
`start` are called while a factory is still at work.

  start ─ waiting ─(fulfil / reject)→ settling ─(settle)→ settled

* `GuardWorld.step` lets the calls and the promises interleave,
* `Guarded` is the invariant: a factory of the current generation is the one
  that `starting` holds, and what has been opened is in hand or closed.
-/
import LnPay.TransitionSystem
import Mathlib.Data.List.Nodup
import Mathlib.Logic.Function.Basic

namespace LnPay

/-! ## The guard and its promises -/

/-- `createSubscriptionGuard`: its three variables.  A subscription has the number of the start that
opened it. -/
structure SubscriptionGuard where
  cleanup : Option ℕ := none
  starting : Option ℕ := none
  generation : ℕ := 0
  deriving DecidableEq, Repr

/-- Where a start is: its factory is at work, its `finally` is still to come, or all is over. -/
inductive StartPhase
  | unborn
  | waiting (mine : ℕ)
  | settling
  | settled
  deriving DecidableEq, Repr

/-- The guard, the starts, and every subscription that was opened or closed so far. -/
structure GuardWorld where
  guard : SubscriptionGuard
  phase : ℕ → StartPhase
  next : ℕ
  opened : List ℕ
  closed : List ℕ

/-- A call of the app, or a promise that goes on. -/
inductive GuardInput
  | start
  | stop
  | fulfil (id : ℕ)
  | reject (id : ℕ)
  | settle (id : ℕ)
  deriving DecidableEq, Repr

namespace GuardWorld

/-- `start`. -/
def start (w : GuardWorld) : GuardWorld :=
  if w.guard.cleanup ≠ none then w
  else if w.guard.starting ≠ none then w
  else
    { w with
      guard := { w.guard with starting := some w.next }
      phase := Function.update w.phase w.next (.waiting w.guard.generation)
      next := w.next + 1 }

/-- `stop`. -/
def stop (w : GuardWorld) : GuardWorld :=
  { w with
    guard := { cleanup := none, starting := none, generation := w.guard.generation + 1 }
    closed := w.closed ++ w.guard.cleanup.toList }

/-- The subscription of a factory is open: it is kept, or closed at once. -/
def opens (w : GuardWorld) (id mine : ℕ) : GuardWorld :=
  if mine ≠ w.guard.generation then
    { w with
      phase := Function.update w.phase id .settling
      opened := w.opened ++ [id]
      closed := w.closed ++ [id] }
  else
    { w with
      phase := Function.update w.phase id .settling
      opened := w.opened ++ [id]
      guard := { w.guard with cleanup := some id } }

/-- One step; `none` when the promise is not there to go on. -/
def step (w : GuardWorld) : GuardInput → Option GuardWorld
  | .start => some w.start
  | .stop => some w.stop
  | .fulfil id =>
    match w.phase id with
    | .waiting mine => some (w.opens id mine)
    | _ => none
  | .reject id =>
    match w.phase id with
    | .waiting _ => some { w with phase := Function.update w.phase id .settling }
    | _ => none
  | .settle id =>
    match w.phase id with
    | .settling =>
      -- only the start that is still the current one is let go
      let starting := if w.guard.starting = some id then none else w.guard.starting
      some { w with
        phase := Function.update w.phase id .settled
        guard := { w.guard with starting := starting } }
    | _ => none

end GuardWorld

/-- A guard that has just been made. -/
def guardSystem : TransitionSystem GuardWorld GuardInput where
  init w := w = ⟨{}, fun _ => .unborn, 0, [], []⟩
  step := GuardWorld.step

/-! ## The invariant -/

/-- Who is at work after one start went on was at work before. -/
theorem waiting_of_update {phase : ℕ → StartPhase} {id k mine : ℕ} {p : StartPhase}
    (hp : ∀ m, p ≠ .waiting m) (hk : Function.update phase id p k = .waiting mine) :
    k ≠ id ∧ phase k = .waiting mine := by
  by_cases hid : k = id
  · subst hid
    rw [Function.update_self] at hk
    exact absurd hk (hp mine)
  · rw [Function.update_of_ne hid] at hk
    exact ⟨hid, hk⟩

/-- What holds of a guard at every moment. -/
structure Guarded (w : GuardWorld) : Prop where
  unborn : ∀ id, w.next ≤ id → w.phase id = .unborn
  past : ∀ id mine, w.phase id = .waiting mine → mine ≤ w.guard.generation
  /-- a factory of this generation is the current start, and nothing is open yet -/
  current : ∀ id, w.phase id = .waiting w.guard.generation →
    w.guard.starting = some id ∧ w.guard.cleanup = none
  starting : ∀ id, w.guard.starting = some id →
    w.phase id = .waiting w.guard.generation ∨ w.phase id = .settling
  /-- what was opened has left its factory -/
  left : ∀ id ∈ w.opened, w.phase id = .settling ∨ w.phase id = .settled
  once : w.opened.Nodup
  kept : (w.closed ++ w.guard.cleanup.toList).Perm w.opened

namespace Guarded

variable {w w' : GuardWorld} {id mine : ℕ}

theorem init : Guarded ⟨{}, fun _ => .unborn, 0, [], []⟩ where
  unborn _ _ := rfl
  past _ _ h := by cases h
  current _ h := by cases h
  starting _ h := by cases h
  left _ h := by cases h
  once := List.nodup_nil
  kept := List.Perm.refl _

/-- A start that has not come to its end has opened nothing. -/
theorem notMem_opened (h : Guarded w) (hsettling : w.phase id ≠ .settling)
    (hsettled : w.phase id ≠ .settled) : id ∉ w.opened := by
  intro hmem
  rcases h.left id hmem with hp | hp
  · exact hsettling hp
  · exact hsettled hp

theorem start (h : Guarded w) : Guarded w.start := by
  unfold GuardWorld.start
  split
  · exact h
  · rename_i hcleanup
    split
    · exact h
    · rename_i hstarting
      have hfresh := h.unborn w.next (Nat.le_refl _)
      -- no factory of this generation is at work: it would be the current start
      have hnone : ∀ id, w.phase id ≠ .waiting w.guard.generation := by
        intro id hw
        have hc := (h.current id hw).1
        exact hstarting (by rw [hc]; exact Option.some_ne_none id)
      have hwait : ∀ id mine, Function.update w.phase w.next (.waiting w.guard.generation) id =
          .waiting mine → (id = w.next ∧ mine = w.guard.generation) ∨ w.phase id = .waiting mine := by
        intro id mine hw
        by_cases hid : id = w.next
        · subst hid
          rw [Function.update_self] at hw
          cases hw
          exact .inl ⟨rfl, rfl⟩
        · rw [Function.update_of_ne hid] at hw
          exact .inr hw
      refine ⟨fun id hle => ?_, fun id mine hw => ?_, fun id hw => ?_, fun id hs => ?_,
        fun id hmem => ?_, h.once, h.kept⟩
      · have hle : w.next + 1 ≤ id := hle
        show Function.update w.phase w.next _ id = _
        rw [Function.update_of_ne (by omega)]
        exact h.unborn id (by omega)
      · rcases hwait id mine hw with ⟨-, rfl⟩ | hw
        · exact Nat.le_refl _
        · exact h.past id mine hw
      · rcases hwait id _ hw with ⟨rfl, -⟩ | hw
        · exact ⟨rfl, not_not.mp hcleanup⟩
        · exact absurd hw (hnone id)
      · cases hs
        exact .inl (Function.update_self ..)
      · have hne : id ≠ w.next := by
          rintro rfl
          exact h.notMem_opened (by simp [hfresh]) (by simp [hfresh]) hmem
        show Function.update w.phase w.next _ id = _ ∨ Function.update w.phase w.next _ id = _
        rw [Function.update_of_ne hne]
        exact h.left id hmem

theorem stop (h : Guarded w) : Guarded w.stop where
  unborn := h.unborn
  past id mine hw := Nat.le_succ_of_le (h.past id mine hw)
  current id hw := by
    have hle := h.past id (w.guard.generation + 1) hw
    omega
  starting _ hs := by cases hs
  left := h.left
  once := h.once
  kept := by
    show ((w.closed ++ w.guard.cleanup.toList) ++ []).Perm w.opened
    rw [List.append_nil]
    exact h.kept

/-- A factory that is done is neither the start that may open nor open already. -/
theorem leave (h : Guarded w) (hw : w.phase id = .waiting mine) :
    id ∉ w.opened ∧ ∀ k, w.next ≤ k → k ≠ id := by
  constructor
  · exact h.notMem_opened (by simp [hw]) (by simp [hw])
  · rintro k hk rfl
    rw [h.unborn k hk] at hw
    cases hw

/-- What the phases say once one factory has left: a part of the invariant that both outcomes
share. -/
theorem phases_leave (h : Guarded w) (hw : w.phase id = .waiting mine) :
    (∀ k, w.next ≤ k → Function.update w.phase id .settling k = .unborn) ∧
    (∀ k m, Function.update w.phase id .settling k = .waiting m →
      k ≠ id ∧ w.phase k = .waiting m) ∧
    (∀ k, w.guard.starting = some k →
      Function.update w.phase id .settling k = .waiting w.guard.generation ∨
        Function.update w.phase id .settling k = .settling) ∧
    ∀ k ∈ w.opened ++ [id], Function.update w.phase id .settling k = .settling ∨
      Function.update w.phase id .settling k = .settled := by
  obtain ⟨hnew, hnext⟩ := h.leave hw
  refine ⟨fun k hk => ?_, fun k m hk => ?_, fun k hs => ?_, fun k hk => ?_⟩
  · rw [Function.update_of_ne (hnext k hk)]
    exact h.unborn k hk
  · exact waiting_of_update (by intro m he; cases he) hk
  · by_cases hid : k = id
    · subst hid
      exact .inr (Function.update_self ..)
    · rw [Function.update_of_ne hid]
      exact h.starting k hs
  · by_cases hid : k = id
    · subst hid
      exact .inl (Function.update_self ..)
    · rw [Function.update_of_ne hid]
      rcases List.mem_append.mp hk with hk | hk
      · exact h.left k hk
      · exact absurd (List.mem_singleton.mp hk) hid

theorem opens (h : Guarded w) (hw : w.phase id = .waiting mine) : Guarded (w.opens id mine) := by
  obtain ⟨hnew, -⟩ := h.leave hw
  obtain ⟨hunborn, hwait, hstart, hleft⟩ := h.phases_leave hw
  have honce : (w.opened ++ [id]).Nodup := by
    refine h.once.append (List.nodup_singleton id) ?_
    intro k hk hmem
    exact hnew (List.mem_singleton.mp hmem ▸ hk)
  unfold GuardWorld.opens
  split
  · refine ⟨hunborn, fun k m hk => h.past k m (hwait k m hk).2, fun k hk => ?_, hstart, hleft,
      honce, ?_⟩
    · exact h.current k (hwait k _ hk).2
    · show ((w.closed ++ [id]) ++ w.guard.cleanup.toList).Perm (w.opened ++ [id])
      have hswap : ([id] ++ w.guard.cleanup.toList).Perm (w.guard.cleanup.toList ++ [id]) :=
        List.perm_append_comm
      rw [List.append_assoc]
      refine (hswap.append_left w.closed).trans ?_
      rw [← List.append_assoc]
      exact h.kept.append_right [id]
  · rename_i hmine
    obtain rfl := not_not.mp hmine
    obtain ⟨hstarting, hcleanup⟩ := h.current id hw
    refine ⟨hunborn, fun k m hk => h.past k m (hwait k m hk).2, fun k hk => ?_, hstart, hleft,
      honce, ?_⟩
    · -- another factory of this generation would be the same start
      obtain ⟨hne, hk⟩ := hwait k _ hk
      have hs := (h.current k hk).1
      rw [hstarting] at hs
      exact absurd (Option.some.inj hs).symm hne
    · show (w.closed ++ [id]).Perm (w.opened ++ [id])
      have hkept := h.kept
      rw [hcleanup] at hkept
      have hkept : (w.closed ++ []).Perm w.opened := hkept
      rw [List.append_nil] at hkept
      exact hkept.append_right [id]

theorem reject (h : Guarded w) (hw : w.phase id = .waiting mine) :
    Guarded { w with phase := Function.update w.phase id .settling } := by
  obtain ⟨hunborn, hwait, hstart, hleft⟩ := h.phases_leave hw
  exact ⟨hunborn, fun k m hk => h.past k m (hwait k m hk).2,
    fun k hk => h.current k (hwait k _ hk).2, hstart,
    fun k hk => hleft k (List.mem_append_left _ hk), h.once, h.kept⟩

theorem settle (h : Guarded w) (hw : w.phase id = .settling) (starting : Option ℕ)
    (hs : starting = if w.guard.starting = some id then none else w.guard.starting) :
    Guarded { w with
      phase := Function.update w.phase id .settled
      guard := { w.guard with starting := starting } } := by
  have hwait : ∀ k m, Function.update w.phase id .settled k = .waiting m →
      k ≠ id ∧ w.phase k = .waiting m :=
    fun k m hk => waiting_of_update (by intro m he; cases he) hk
  refine ⟨fun k hk => ?_, fun k m hk => h.past k m (hwait k m hk).2, fun k hk => ?_,
    fun k hk => ?_, fun k hk => ?_, h.once, h.kept⟩
  · have hne : k ≠ id := by
      rintro rfl
      rw [h.unborn k hk] at hw
      cases hw
    show Function.update w.phase id _ k = _
    rw [Function.update_of_ne hne]
    exact h.unborn k hk
  · obtain ⟨hne, hk⟩ := hwait k _ hk
    obtain ⟨hcur, hcleanup⟩ := h.current k hk
    refine ⟨?_, hcleanup⟩
    show starting = some k
    rw [hs, if_neg, hcur]
    rw [hcur]
    exact fun he => hne (Option.some.inj he)
  · have hk : starting = some k := hk
    rw [hs] at hk
    split at hk
    · cases hk
    · rename_i hother
      have hne : k ≠ id := by
        intro he
        exact hother (he ▸ hk)
      show Function.update w.phase id _ k = _ ∨ Function.update w.phase id _ k = _
      rw [Function.update_of_ne hne]
      exact h.starting k hk
  · by_cases hid : k = id
    · subst hid
      exact .inr (Function.update_self ..)
    · show Function.update w.phase id _ k = _ ∨ Function.update w.phase id _ k = _
      rw [Function.update_of_ne hid]
      exact h.left k hk

/-- **Every step keeps the invariant.** -/
theorem step {i : GuardInput} (h : Guarded w) (hs : w.step i = some w') : Guarded w' := by
  cases i with
  | start =>
    obtain rfl := Option.some.inj hs
    exact h.start
  | stop =>
    obtain rfl := Option.some.inj hs
    exact h.stop
  | fulfil id =>
    simp only [GuardWorld.step] at hs
    split at hs
    · rename_i mine hw
      obtain rfl := Option.some.inj hs
      exact h.opens hw
    · cases hs
  | reject id =>
    simp only [GuardWorld.step] at hs
    split at hs
    · rename_i mine hw
      obtain rfl := Option.some.inj hs
      exact h.reject hw
    · cases hs
  | settle id =>
    simp only [GuardWorld.step] at hs
    split at hs
    · rename_i hw
      obtain rfl := Option.some.inj hs
      exact h.settle hw _ rfl
    · cases hs

end Guarded

theorem guarded_of_reachable {w : GuardWorld} (hw : guardSystem.Reachable w) : Guarded w := by
  refine TransitionSystem.invariant (P := Guarded) ?_ ?_ hw
  · rintro _ rfl
    exact .init
  · intro a i b _ ha hs
    exact ha.step hs

/-! ## What the app may rely on -/

section Calls

variable {w w' : GuardWorld}

/-- Nothing is open, and no factory at work will open anything. -/
structure GuardWorld.Silent (w : GuardWorld) : Prop where
  guarded : Guarded w
  cleanup : w.guard.cleanup = none
  stale : ∀ id, w.phase id ≠ .waiting w.guard.generation

/-- After `stop` every factory at work belongs to an earlier generation. -/
theorem Guarded.silent_stop (h : Guarded w) : w.stop.Silent where
  guarded := h.stop
  cleanup := rfl
  stale id hw := by
    have hle := h.past id (w.guard.generation + 1) hw
    omega

/-- Without a new `start` it stays so: a factory that comes back late closes what it opened. -/
theorem GuardWorld.Silent.step {i : GuardInput} (h : w.Silent) (hi : i ≠ .start)
    (hs : w.step i = some w') : w'.Silent := by
  have hguarded := h.guarded.step hs
  have hother : ∀ id p, p ≠ .waiting w.guard.generation →
      ∀ k, Function.update w.phase id p k ≠ .waiting w.guard.generation := by
    intro id p hp k
    by_cases hid : k = id
    · subst hid
      rw [Function.update_self]
      exact hp
    · rw [Function.update_of_ne hid]
      exact h.stale k
  cases i with
  | start => exact absurd rfl hi
  | stop =>
    obtain rfl := Option.some.inj hs
    exact h.guarded.silent_stop
  | fulfil id =>
    simp only [GuardWorld.step] at hs
    split at hs
    · rename_i mine hw
      obtain rfl := Option.some.inj hs
      have hmine : mine ≠ w.guard.generation := by
        rintro rfl
        exact h.stale id hw
      rw [GuardWorld.opens, if_pos hmine] at hguarded ⊢
      exact ⟨hguarded, h.cleanup, hother id _ (by intro he; cases he)⟩
    · cases hs
  | reject id =>
    simp only [GuardWorld.step] at hs
    split at hs
    · obtain rfl := Option.some.inj hs
      exact ⟨hguarded, h.cleanup, hother id _ (by intro he; cases he)⟩
    · cases hs
  | settle id =>
    simp only [GuardWorld.step] at hs
    split at hs
    · obtain rfl := Option.some.inj hs
      exact ⟨hguarded, h.cleanup, hother id _ (by intro he; cases he)⟩
    · cases hs

theorem GuardWorld.Silent.run {is : List GuardInput} (h : w.Silent) (his : .start ∉ is)
    (hrun : guardSystem.run w is = some w') : w'.Silent := by
  induction is generalizing w with
  | nil => exact Option.some.inj hrun ▸ h
  | cons i is ih =>
    rw [TransitionSystem.run, Option.bind_eq_some_iff] at hrun
    obtain ⟨u, hu, hrun⟩ := hrun
    obtain ⟨hne, hrest⟩ := not_or.mp (mt List.mem_cons.mpr his)
    exact ih (h.step (Ne.symm hne) hu) hrest hrun

/-- A `start` of an app that has stopped begins anew, whatever is still at work. -/
theorem GuardWorld.Silent.start (h : w.Silent) (hstarting : w.guard.starting = none) :
    w.start.phase w.next = .waiting w.start.guard.generation ∧
      w.start.guard.starting = some w.next := by
  unfold GuardWorld.start
  rw [if_neg (not_not.mpr h.cleanup), if_neg (not_not.mpr hstarting)]
  exact ⟨Function.update_self .., rfl⟩

/-- A call of `start` does nothing only when it need not, or when a refusal is about to be
settled. -/
theorem Guarded.start_cases (h : Guarded w) : w.start.guard.cleanup ≠ none ∨
    (∃ id, w.start.phase id = .waiting w.start.guard.generation) ∨
    ∃ id, w.guard.starting = some id ∧ w.phase id = .settling := by
  unfold GuardWorld.start
  split
  · rename_i hcleanup
    exact .inl hcleanup
  · split
    · rename_i hstarting
      obtain ⟨id, hid⟩ := Option.ne_none_iff_exists'.mp hstarting
      rcases h.starting id hid with hw | hw
      · exact .inr (.inl ⟨id, hw⟩)
      · exact .inr (.inr ⟨id, hid, hw⟩)
    · exact .inr (.inl ⟨w.next, Function.update_self ..⟩)

/-- **No ghost subscriptions.**  However starts, stops and promises interleave: each subscription
that was ever opened is the one in hand or was closed, once; at most one factory at work may still
open one; after a `stop`, and until the next `start`, everything is closed, also what comes back
late; and that `start` begins anew, without waiting for a factory that the stop has cut off. -/
theorem no_ghost_subscription (hw : guardSystem.Reachable w) :
    w.opened.Nodup ∧ (w.closed ++ w.guard.cleanup.toList).Perm w.opened ∧
    (∀ id id', w.phase id = .waiting w.guard.generation → w.phase id' = .waiting w.guard.generation →
      id = id') ∧
    (∀ is w', .start ∉ is → guardSystem.run w (.stop :: is) = some w' → w'.closed.Perm w'.opened) ∧
    (w.stop.start.phase w.next = .waiting w.stop.start.guard.generation) ∧
    (w.start.guard.cleanup ≠ none ∨ (∃ id, w.start.phase id = .waiting w.start.guard.generation) ∨
      ∃ id, w.guard.starting = some id ∧ w.phase id = .settling) := by
  have h := guarded_of_reachable hw
  refine ⟨h.once, h.kept, fun id id' hid hid' => ?_, fun is w' his hrun => ?_,
    (h.silent_stop.start rfl).1, h.start_cases⟩
  · have hs := (h.current id hid).1
    rw [(h.current id' hid').1] at hs
    exact (Option.some.inj hs).symm
  · have hsilent := h.silent_stop.run his hrun
    have hkept := hsilent.guarded.kept
    rw [hsilent.cleanup] at hkept
    have hkept : (w'.closed ++ []).Perm w'.opened := hkept
    rwa [List.append_nil] at hkept

end Calls

/-! ### An app that goes to the background while it starts -/

/-- A start, a stop and a start, then both factories come back, the first one last. -/
def backAndForth : List GuardInput := [.start, .stop, .start, .fulfil 1, .fulfil 0, .settle 0]

theorem backAndForth_run : ∃ w, guardSystem.run ⟨{}, fun _ => .unborn, 0, [], []⟩ backAndForth =
    some w ∧ w.guard.cleanup = some 1 ∧ w.opened = [1, 0] :=
  ⟨_, rfl, rfl, rfl⟩

/-- The subscription of the first start is closed, the second one is in hand. -/
theorem no_ghost_subscription_backAndForth :
    ∃ w, guardSystem.run ⟨{}, fun _ => .unborn, 0, [], []⟩ backAndForth = some w ∧
      (w.closed ++ [1]).Perm [1, 0] := by
  obtain ⟨w, hrun, hcleanup, hopened⟩ := backAndForth_run
  have hinit : guardSystem.Reachable ⟨{}, fun _ => .unborn, 0, [], []⟩ := .init rfl
  have hkept := (no_ghost_subscription (hinit.run hrun)).2.1
  rw [hcleanup, hopened] at hkept
  exact ⟨w, hrun, hkept⟩

end LnPay
