/-
# Tables with a primary key

A table is a list of rows together with the fact that no two rows share a
key, so a table with a duplicate key cannot be built.  The operations are
the ones a relational store offers on a primary key:

* `find` looks a row up by its key, `insert` refuses a key that is taken,
* `update` changes the row under a key (never the key itself),
* `erase` deletes the row under a key.

Everything proved about a table is stated through `find`, which determines
the rows up to their order (`mem_rows_iff`).
-/
import Mathlib.Tactic.Common
import Mathlib.Data.List.Nodup
import Mathlib.Data.List.Sort

/-- A list of rows of which no two have the same key. -/
structure KeyedTable {Key Row : Type} (key : Row → Key) where
  rows : List Row
  /-- The primary-key constraint. -/
  nodup : (rows.map key).Nodup

namespace KeyedTable

variable {Key Row : Type} {key : Row → Key}

/-- The table without rows. -/
def empty : KeyedTable key := ⟨[], List.nodup_nil⟩

section Operations

variable [DecidableEq Key]

/-- The row under a key. -/
def find (t : KeyedTable key) (k : Key) : Option Row :=
  t.rows.find? (fun r => key r = k)

/-- Appends a row; `none` when its key is taken. -/
def insert (t : KeyedTable key) (r : Row) : Option (KeyedTable key) :=
  if h : key r ∈ t.rows.map key then none
  else some ⟨t.rows ++ [r], by
    rw [List.map_append, List.map_singleton]
    exact List.nodup_append.mpr ⟨t.nodup, List.nodup_singleton _, by
      rintro a ha b hb rfl
      exact h (List.mem_singleton.mp hb ▸ ha)⟩⟩

/-- Changes the row under `k` by a function that keeps the key. -/
def update (t : KeyedTable key) (k : Key) (f : Row → Row) (hf : ∀ r, key (f r) = key r) :
    KeyedTable key :=
  ⟨t.rows.map (fun r => if key r = k then f r else r), by
    have h : (t.rows.map fun r => if key r = k then f r else r).map key = t.rows.map key := by
      rw [List.map_map]
      refine List.map_congr_left fun r _ => ?_
      simp only [Function.comp_apply]
      split <;> simp [hf]
    exact h ▸ t.nodup⟩

/-- Changes every row by a function that keeps the key. -/
def map (t : KeyedTable key) (f : Row → Row) (hf : ∀ r, key (f r) = key r) : KeyedTable key :=
  ⟨t.rows.map f, by
    have h : (t.rows.map f).map key = t.rows.map key := by
      rw [List.map_map]
      exact List.map_congr_left fun r _ => hf r
    exact h ▸ t.nodup⟩

/-- Deletes the row under `k`. -/
def erase (t : KeyedTable key) (k : Key) : KeyedTable key :=
  ⟨t.rows.filter (fun r => key r ≠ k), t.nodup.sublist (List.Sublist.map _ List.filter_sublist)⟩

end Operations

/-! ## What `find` sees -/

/-- Two rows of a table with the same key are the same row. -/
theorem eq_of_key_eq {t : KeyedTable key} {r s : Row} (hr : r ∈ t.rows) (hs : s ∈ t.rows)
    (h : key r = key s) : r = s :=
  List.inj_on_of_nodup_map t.nodup hr hs h

section Find

variable [DecidableEq Key]

@[simp] theorem find_empty (k : Key) : (empty : KeyedTable key).find k = none := rfl

theorem key_of_find {t : KeyedTable key} {k : Key} {r : Row} (h : t.find k = some r) :
    key r = k := by
  simpa using List.find?_some h

theorem mem_of_find {t : KeyedTable key} {k : Key} {r : Row} (h : t.find k = some r) :
    r ∈ t.rows :=
  List.mem_of_find?_eq_some h

/-- A row of the table is found under its own key. -/
theorem find_key_of_mem {t : KeyedTable key} {r : Row} (hr : r ∈ t.rows) :
    t.find (key r) = some r := by
  cases hf : t.find (key r) with
  | none =>
    have := List.find?_eq_none.mp hf r hr
    simp at this
  | some s => rw [eq_of_key_eq (mem_of_find hf) hr (key_of_find hf)]

theorem mem_rows_iff {t : KeyedTable key} {r : Row} : r ∈ t.rows ↔ t.find (key r) = some r :=
  ⟨find_key_of_mem, mem_of_find⟩

theorem find_eq_some_iff {t : KeyedTable key} {k : Key} {r : Row} :
    t.find k = some r ↔ r ∈ t.rows ∧ key r = k :=
  ⟨fun h => ⟨mem_of_find h, key_of_find h⟩, fun h => h.2 ▸ find_key_of_mem h.1⟩

theorem find_eq_none_iff {t : KeyedTable key} {k : Key} :
    t.find k = none ↔ ∀ r ∈ t.rows, key r ≠ k := by
  simp [find]

theorem find_eq_none_iff_notMem {t : KeyedTable key} {k : Key} :
    t.find k = none ↔ k ∉ t.rows.map key := by
  rw [find_eq_none_iff]
  simp

end Find

/-! ## The operations through `find` -/

section Specs

variable [DecidableEq Key]

/-- An insertion succeeds exactly on a free key. -/
theorem insert_isSome_iff {t : KeyedTable key} {r : Row} :
    (t.insert r).isSome ↔ t.find (key r) = none := by
  rw [find_eq_none_iff_notMem, insert]
  split <;> simp_all

theorem insert_eq_none_iff {t : KeyedTable key} {r : Row} :
    t.insert r = none ↔ ∃ s, t.find (key r) = some s := by
  rw [← Option.not_isSome_iff_eq_none, insert_isSome_iff, ← ne_eq, Option.ne_none_iff_exists']

theorem find_of_insert {t t' : KeyedTable key} {r : Row} (h : t.insert r = some t') :
    t.find (key r) = none :=
  insert_isSome_iff.mp (by rw [h]; rfl)

theorem rows_of_insert {t t' : KeyedTable key} {r : Row} (h : t.insert r = some t') :
    t'.rows = t.rows ++ [r] := by
  unfold insert at h
  split at h
  · exact absurd h (by simp)
  · rw [← Option.some.inj h]

theorem find_insert {t t' : KeyedTable key} {r : Row} (h : t.insert r = some t') (k : Key) :
    t'.find k = if key r = k then some r else t.find k := by
  have hfree := find_of_insert h
  rw [find, rows_of_insert h, List.find?_append]
  by_cases hk : key r = k
  · subst hk
    have : t.rows.find? (fun s => key s = key r) = none := hfree
    simp [this]
  · simp [hk, find]

@[simp] theorem rows_update (t : KeyedTable key) (k : Key) (f : Row → Row) (hf) :
    (t.update k f hf).rows = t.rows.map (fun r => if key r = k then f r else r) := rfl

theorem find_update (t : KeyedTable key) (k : Key) (f : Row → Row)
    (hf : ∀ r, key (f r) = key r) (k' : Key) :
    (t.update k f hf).find k' = if k' = k then (t.find k').map f else t.find k' := by
  have hcomp : ((fun r => decide (key r = k')) ∘ fun r => if key r = k then f r else r)
      = fun r => decide (key r = k') := by
    funext r
    simp only [Function.comp_apply]
    split <;> simp [hf]
  rw [find, rows_update, List.find?_map, hcomp]
  change (t.find k').map _ = _
  cases h : t.find k' with
  | none => simp
  | some r =>
    have := key_of_find h
    by_cases hk : k' = k <;> simp [hk, this]

/-- A selection that neither the old nor the new row under `k` belongs to does not change. -/
theorem filter_update {t : KeyedTable key} {k : Key} {f : Row → Row}
    (hf : ∀ r, key (f r) = key r) {p : Row → Bool}
    (hp : ∀ r, t.find k = some r → p r = false ∧ p (f r) = false) :
    (t.update k f hf).rows.filter p = t.rows.filter p := by
  have hrow : ∀ r ∈ t.rows, key r = k → p r = false ∧ p (f r) = false :=
    fun r hr hk => hp r (find_eq_some_iff.mpr ⟨hr, hk⟩)
  rw [rows_update]
  generalize t.rows = rows at hrow
  induction rows with
  | nil => rfl
  | cons r rows ih =>
    have ih := ih fun s hs => hrow s (List.mem_cons_of_mem r hs)
    rw [List.map_cons, List.filter_cons, List.filter_cons, ih]
    by_cases hk : key r = k
    · obtain ⟨h, h'⟩ := hrow r List.mem_cons_self hk
      simp [hk, h, h']
    · simp [hk]

@[simp] theorem find_update_self (t : KeyedTable key) (k : Key) (f : Row → Row) (hf) :
    (t.update k f hf).find k = (t.find k).map f := by
  simp [find_update]

theorem find_map (t : KeyedTable key) (f : Row → Row) (hf : ∀ r, key (f r) = key r) (k : Key) :
    (t.map f hf).find k = (t.find k).map f := by
  have hcomp : ((fun r => decide (key r = k)) ∘ f) = fun r => decide (key r = k) := by
    funext r
    simp only [Function.comp_apply, hf]
  show (t.rows.map f).find? _ = _
  rw [List.find?_map, hcomp]
  rfl

theorem find_erase (t : KeyedTable key) (k k' : Key) :
    (t.erase k).find k' = if k' = k then none else t.find k' := by
  rw [find, erase, List.find?_filter]
  by_cases hk : k' = k
  · subst hk
    simp
  · simp only [hk, if_false]
    unfold find
    congr 1
    funext r
    by_cases hr : key r = k' <;> simp [hr, hk]

@[simp] theorem find_erase_self (t : KeyedTable key) (k : Key) : (t.erase k).find k = none := by
  simp [find_erase]

theorem find_erase_of_ne (t : KeyedTable key) {k k' : Key} (h : k' ≠ k) :
    (t.erase k).find k' = t.find k' := by
  simp [find_erase, h]

end Specs

end KeyedTable
