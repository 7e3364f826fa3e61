/-
# Transition systems driven by inputs

A system is a set of initial states and a partial step function: `step s i`
is the state after input `i`, or `none` when `s` does not accept it.

* `run` feeds a list of inputs, so that a concrete history evaluates;
* `ReachableBy ok` are the states of the runs all of whose steps meet `ok`,
  and `Reachable` those of all runs;
* `Along Q` says that every step of a run meets `Q`;
* `invariant` is the induction over a run, done once.
-/
import Mathlib.Tactic.Common

/-- A transition system with states `State` and inputs `Input`. -/
structure TransitionSystem (State Input : Type*) where
  init : State → Prop
  step : State → Input → Option State

namespace TransitionSystem

variable {State Input : Type*} (M : TransitionSystem State Input)

/-- Feeds the inputs one after the other; `none` when one is not accepted. -/
def run (s : State) : List Input → Option State
  | [] => some s
  | i :: is => (M.step s i).bind fun s' => run s' is

/-- Every step of the run that feeds these inputs meets `Q`. -/
def Along (Q : State → Input → Prop) : State → List Input → Prop
  | _, [] => True
  | s, i :: is => Q s i ∧ ∀ s', M.step s i = some s' → Along Q s' is

/-- The states of the runs whose every step `(s, i)` meets `ok`. -/
inductive ReachableBy (ok : State → Input → Prop) : State → Prop
  | init {s} : M.init s → ReachableBy ok s
  | step {s i s'} : ReachableBy ok s → ok s i → M.step s i = some s' → ReachableBy ok s'

/-- The states of all runs. -/
abbrev Reachable : State → Prop := M.ReachableBy fun _ _ => True

variable {M}

theorem ReachableBy.mono {ok ok' : State → Input → Prop} (h : ∀ s i, ok s i → ok' s i) {s : State}
    (hs : M.ReachableBy ok s) : M.ReachableBy ok' s := by
  induction hs with
  | init hi => exact .init hi
  | step _ hok hstep ih => exact .step ih (h _ _ hok) hstep

theorem ReachableBy.reachable {ok : State → Input → Prop} {s : State}
    (hs : M.ReachableBy ok s) : M.Reachable s :=
  hs.mono fun _ _ _ => trivial

theorem Reachable.next {s s' : State} {i : Input} (hs : M.Reachable s)
    (h : M.step s i = some s') : M.Reachable s' :=
  .step hs trivial h

/-- A property that holds initially and that every step keeps holds in every reachable state. -/
theorem invariant_by {ok : State → Input → Prop} {P : State → Prop} (hinit : ∀ s, M.init s → P s)
    (hstep : ∀ s i s', M.ReachableBy ok s → P s → ok s i → M.step s i = some s' → P s')
    {s : State} (hs : M.ReachableBy ok s) : P s := by
  induction hs with
  | init hi => exact hinit _ hi
  | step hs hok h ih => exact hstep _ _ _ hs ih hok h

/-- The same over all runs. -/
theorem invariant {P : State → Prop} (hinit : ∀ s, M.init s → P s)
    (hstep : ∀ s i s', M.Reachable s → P s → M.step s i = some s' → P s')
    {s : State} (hs : M.Reachable s) : P s :=
  invariant_by hinit (fun s i s' hs hP _ h => hstep s i s' hs hP h) hs

/-- Two properties of steps that agree on the steps that meet `ok` agree on the runs of such steps. -/
theorem along_congr {ok Q R : State → Input → Prop}
    (h : ∀ s i, M.ReachableBy ok s → ok s i → (Q s i ↔ R s i)) {s : State} {is : List Input}
    (hs : M.ReachableBy ok s) (hok : M.Along ok s is) : M.Along Q s is ↔ M.Along R s is := by
  induction is generalizing s with
  | nil => exact Iff.rfl
  | cons i is ih =>
    obtain ⟨hi, hrest⟩ := hok
    constructor
    · rintro ⟨hq, hqs⟩
      exact ⟨(h s i hs hi).mp hq, fun s' hs' =>
        (ih (.step hs hi hs') (hrest s' hs')).mp (hqs s' hs')⟩
    · rintro ⟨hr, hrs⟩
      exact ⟨(h s i hs hi).mpr hr, fun s' hs' =>
        (ih (.step hs hi hs') (hrest s' hs')).mpr (hrs s' hs')⟩

/-- What holds along a run holds along its end. -/
theorem Along.drop {Q : State → Input → Prop} {s s' : State} {is js : List Input}
    (h : M.Along Q s (is ++ js)) (hrun : M.run s is = some s') : M.Along Q s' js := by
  induction is generalizing s with
  | nil => exact Option.some.inj hrun ▸ h
  | cons i is ih =>
    rw [TransitionSystem.run, Option.bind_eq_some_iff] at hrun
    obtain ⟨t, ht, hrun⟩ := hrun
    exact ih (h.2 t ht) hrun

/-- What holds along the two parts of a run holds along the run. -/
theorem Along.append {Q : State → Input → Prop} {s : State} {is js : List Input}
    (h : M.Along Q s is) (hrest : ∀ s', M.run s is = some s' → M.Along Q s' js) :
    M.Along Q s (is ++ js) := by
  induction is generalizing s with
  | nil => exact hrest s rfl
  | cons i is ih =>
    refine ⟨h.1, fun t ht => ih (h.2 t ht) fun s' hs' => hrest s' ?_⟩
    rw [TransitionSystem.run, ht]
    exact hs'

/-- Running from a reachable state ends in a reachable state; what the steps have to meet is met by
every input of the run. -/
theorem ReachableBy.run {ok : State → Input → Prop} {s s' : State} {is : List Input}
    (hs : M.ReachableBy ok s) (hok : ∀ i ∈ is, ∀ s, ok s i) (h : M.run s is = some s') :
    M.ReachableBy ok s' := by
  induction is generalizing s with
  | nil => exact Option.some.inj h ▸ hs
  | cons i is ih =>
    rw [TransitionSystem.run, Option.bind_eq_some_iff] at h
    obtain ⟨t, ht, hrun⟩ := h
    exact ih (.step hs (hok i List.mem_cons_self s) ht)
      (fun j hj => hok j (List.mem_cons_of_mem i hj)) hrun

theorem Reachable.run {s s' : State} {is : List Input} (hs : M.Reachable s)
    (h : M.run s is = some s') : M.Reachable s' :=
  ReachableBy.run hs (fun _ _ _ => trivial) h

end TransitionSystem
