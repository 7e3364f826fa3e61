/-
# Transactions that may throw

A transaction maps a state to the state it leaves, or throws; a throw rolls
everything back, so only the successful outcomes matter.

* `Leads R s r`: whatever the outcome `r` of a transaction begun in `s` is, a
  state it leaves is reached from `s` by steps of `R`,
* `forEach` runs a body for each row of a list in turn,
* `Leads.loop` is the loop rule: the rows were read before the loop, and a
  body may spoil what is known of its own row only.
-/
import Mathlib.Tactic.Common
import Mathlib.Logic.Relation

/-! ## Successful outcomes -/

section Except

variable {ε α β σ : Type}

theorem Except.bind_eq_ok_iff {x : Except ε α} {f : α → Except ε β} {b : β} :
    x >>= f = .ok b ↔ ∃ a, x = .ok a ∧ f a = .ok b := by
  cases x with
  | error e => simp [bind, Except.bind]
  | ok a => simp [bind, Except.bind]

theorem Except.map_eq_ok_iff {x : Except ε α} {f : α → β} {b : β} :
    x.map f = .ok b ↔ ∃ a, x = .ok a ∧ f a = b := by
  cases x with
  | error e => simp [Except.map]
  | ok a => simp [Except.map]

theorem Except.mapError_eq_ok_iff {ε' : Type} {x : Except ε α} {f : ε → ε'} {a : α} :
    x.mapError f = .ok a ↔ x = .ok a := by
  cases x with
  | error e => simp [Except.mapError]
  | ok a => simp [Except.mapError]

/-- Throws unless the condition holds. -/
def throwUnless (p : Prop) [Decidable p] (e : ε) : Except ε Unit := if p then .ok () else .error e

theorem throwUnless_eq_ok_iff {p : Prop} [Decidable p] {e : ε} {u : Unit} :
    throwUnless p e = .ok u ↔ p := by
  by_cases h : p
  · simp [throwUnless, h]
  · simp [throwUnless, h]

/-- Runs a transaction body for each row in turn. -/
def forEach (rows : List α) (body : α → σ → Except ε σ) (s : σ) : Except ε σ :=
  rows.foldlM (fun s r => body r s) s

@[simp] theorem forEach_nil (body : α → σ → Except ε σ) (s : σ) : forEach [] body s = .ok s := rfl

@[simp] theorem forEach_cons (r : α) (rows : List α) (body : α → σ → Except ε σ) (s : σ) :
    forEach (r :: rows) body s = body r s >>= forEach rows body := rfl

end Except

/-! ## Where a transaction leads -/

/-- Every successful outcome is reached by steps of `R`. -/
def Leads {ε σ : Type} (R : σ → σ → Prop) (s : σ) (r : Except ε σ) : Prop :=
  ∀ s', r = .ok s' → Relation.ReflTransGen R s s'

namespace Leads

variable {ε α σ : Type} {R : σ → σ → Prop} {s : σ}

theorem refl : Leads R s (.ok s : Except ε σ) := by
  rintro _ ⟨⟩
  exact .refl

theorem error {e : ε} : Leads R s (.error e) := fun _ h => by cases h

/-- One step. -/
theorem single {s' : σ} (h : R s s') : Leads R s (.ok s' : Except ε σ) := by
  rintro _ ⟨⟩
  exact .single h

theorem steps {s' : σ} (h : Relation.ReflTransGen R s s') : Leads R s (.ok s' : Except ε σ) := by
  rintro _ ⟨⟩
  exact h

/-- A step, then whatever follows it. -/
theorem head {s₁ : σ} {r : Except ε σ} (h : R s s₁) (hr : Leads R s₁ r) : Leads R s r :=
  fun s' hs' => (hr s' hs').head h

theorem bind {r : Except ε σ} {f : σ → Except ε σ} (hr : Leads R s r)
    (hf : ∀ s', r = .ok s' → Leads R s' (f s')) : Leads R s (r >>= f) := by
  intro s'' h
  obtain ⟨s', hs', hf'⟩ := Except.bind_eq_ok_iff.mp h
  exact (hr s' hs').trans (hf s' hs' s'' hf')

/-- The state part of a transaction that also returns a value. -/
theorem bindPair {r : Except ε (α × σ)} {f : α × σ → Except ε σ} (hr : Leads R s (r.map Prod.snd))
    (hf : ∀ a s', r = .ok (a, s') → Leads R s' (f (a, s'))) : Leads R s (r >>= f) := by
  intro s'' h
  obtain ⟨⟨a, s'⟩, hs', hf'⟩ := Except.bind_eq_ok_iff.mp h
  exact (hr s' (Except.map_eq_ok_iff.mpr ⟨_, hs', rfl⟩)).trans (hf a s' hs' s'' hf')

theorem ite {p : Prop} [Decidable p] {r r' : Except ε σ} (h : p → Leads R s r)
    (h' : ¬p → Leads R s r') : Leads R s (if p then r else r') := by
  split
  · exact h ‹_›
  · exact h' ‹_›

/-- The same under the state part of a transaction that also returns a value. -/
theorem mapIte {p : Prop} [Decidable p] {r r' : Except ε (α × σ)}
    (h : p → Leads R s (r.map Prod.snd)) (h' : ¬p → Leads R s (r'.map Prod.snd)) :
    Leads R s ((if p then r else r').map Prod.snd) := by
  split
  · exact h ‹_›
  · exact h' ‹_›

theorem mono {R' : σ → σ → Prop} (hR : ∀ a b, R a b → R' a b) {r : Except ε σ}
    (h : Leads R s r) : Leads R' s r := fun s' hs' => Relation.ReflTransGen.mono hR _ _ (h s' hs')

/-- **The loop rule.**  Each row satisfies `P` when the loop begins; a body leads by `R` from where
its row does, and keeps `P` for the rows still to come. -/
theorem loop {P : α → σ → Prop} {rows : List α} {body : α → σ → Except ε σ}
    (hbody : ∀ r ∈ rows, ∀ s, P r s → Leads R s (body r s))
    (hkeep : rows.Pairwise fun r r' => ∀ s s', P r s → P r' s → body r s = .ok s' → P r' s')
    (hP : ∀ r ∈ rows, P r s) : Leads R s (forEach rows body s) := by
  induction rows generalizing s with
  | nil => exact refl
  | cons r rows ih =>
    rw [forEach_cons]
    obtain ⟨hr, hrest⟩ := List.pairwise_cons.mp hkeep
    have hPr := hP r List.mem_cons_self
    refine bind (hbody r List.mem_cons_self s hPr) fun s' hs' => ?_
    refine ih (fun r' h' => hbody r' (List.mem_cons_of_mem _ h')) hrest fun r' h' => ?_
    exact hr r' h' s s' hPr (hP r' (List.mem_cons_of_mem _ h')) hs'

end Leads

/-- A property kept by every step is kept along steps. -/
theorem Relation.ReflTransGen.keeps {σ : Type} {R : σ → σ → Prop} {P : σ → Prop} {s s' : σ}
    (h : Relation.ReflTransGen R s s') (hR : ∀ a b, R a b → P a → P b) (hs : P s) : P s' := by
  induction h with
  | refl => exact hs
  | tail _ hstep ih => exact hR _ _ hstep ih
