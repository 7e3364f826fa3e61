/-
# Medians

The median of a list over a linear order: the value in the middle, or a mean of
the two in the middle.

* `Mean` is a mean of two values, which lies between them,
* `median_ge`, `median_le` say that fewer than half of the values, however wrong,
  do not move the median past the others.
-/
import Mathlib.Data.List.Sort
import Mathlib.Tactic.Common
import Mathlib.Tactic.Linarith

namespace Median

variable {α : Type*} [LinearOrder α]

/-- A mean of two values. -/
structure Mean (α : Type*) [LinearOrder α] where
  of : α → α → α
  le_of : ∀ {a b}, a ≤ b → a ≤ of a b
  of_le : ∀ {a b}, a ≤ b → of a b ≤ b

/-- The median. -/
def median (mean : Mean α) (values : List α) : Option α :=
  let sorted := values.insertionSort (· ≤ ·)
  let mid := sorted.length / 2
  match sorted[mid]? with
  | none => none
  | some hi =>
    if sorted.length % 2 ≠ 0 then some hi
    else match sorted[mid - 1]? with
      | none => some hi
      | some lo => some (mean.of lo hi)

/-- A sorted list has all values below a bound in front. -/
theorem le_getElem_of_countP {l : List α} (hs : l.Pairwise (· ≤ ·)) {a : α} {i : ℕ}
    (hi : i < l.length) (hcount : l.countP (· < a) ≤ i) : a ≤ l[i] := by
  by_contra hlt
  have hbelow : ∀ x ∈ l.take (i + 1), decide (x < a) = true := by
    intro x hx
    obtain ⟨j, hj, rfl⟩ := List.mem_iff_getElem.mp hx
    rw [List.length_take] at hj
    rw [List.getElem_take, decide_eq_true_iff]
    have hji : l[j] ≤ l[i] := by
      obtain heq | hlt' := Nat.eq_or_lt_of_le (show j ≤ i by omega)
      · subst heq
        exact le_refl _
      · exact List.pairwise_iff_getElem.mp hs j i _ hi hlt'
    exact lt_of_le_of_lt hji (not_le.mp hlt)
  have hall : (l.take (i + 1)).countP (· < a) = i + 1 := by
    rw [List.countP_eq_length.mpr hbelow, List.length_take]
    omega
  have hle := (List.take_sublist (i + 1) l).countP_le (p := fun x => decide (x < a))
  omega

/-- A sorted list has all values above a bound at the end. -/
theorem getElem_le_of_countP {l : List α} (hs : l.Pairwise (· ≤ ·)) {b : α} {i : ℕ}
    (hi : i < l.length) (hcount : l.countP (b < ·) < l.length - i) : l[i] ≤ b := by
  by_contra hlt
  have habove : ∀ x ∈ l.drop i, decide (b < x) = true := by
    intro x hx
    obtain ⟨j, hj, rfl⟩ := List.mem_iff_getElem.mp hx
    rw [List.length_drop] at hj
    rw [List.getElem_drop, decide_eq_true_iff]
    have hij : l[i] ≤ l[i + j] := by
      obtain heq | hlt' := Nat.eq_zero_or_pos j
      · subst heq
        exact le_refl _
      · exact List.pairwise_iff_getElem.mp hs i (i + j) hi (by omega) (by omega)
    exact lt_of_lt_of_le (not_le.mp hlt) hij
  have hall : (l.drop i).countP (b < ·) = l.length - i := by
    rw [List.countP_eq_length.mpr habove, List.length_drop]
  have hle := (List.drop_sublist i l).countP_le (p := fun x => decide (b < x))
  omega

/-- The median of a list is in the middle of it. -/
theorem median_cases {mean : Mean α} {values : List α} {m : α} (h : median mean values = some m) :
    ∃ l : List α, l.Perm values ∧ l.Pairwise (· ≤ ·) ∧
      ((∃ hi : l.length / 2 < l.length, l.length % 2 = 1 ∧ m = l[l.length / 2]) ∨
        ∃ (lo : l.length / 2 - 1 < l.length) (hi : l.length / 2 < l.length), l.length % 2 = 0 ∧
          m = mean.of l[l.length / 2 - 1] l[l.length / 2]) := by
  refine ⟨values.insertionSort (· ≤ ·), List.perm_insertionSort _ _, List.pairwise_insertionSort _ _, ?_⟩
  unfold median at h
  dsimp only at h
  generalize values.insertionSort (· ≤ ·) = l at h ⊢
  split at h
  · cases h
  · rename_i hi hhi
    obtain ⟨hlt, hhi⟩ := List.getElem?_eq_some_iff.mp hhi
    split at h
    · rename_i hodd
      exact .inl ⟨hlt, by omega, by rw [hhi]; exact (Option.some.inj h).symm⟩
    · rename_i heven
      have hlo : l.length / 2 - 1 < l.length := by omega
      rw [List.getElem?_eq_getElem hlo] at h
      exact .inr ⟨hlo, hlt, by omega, by rw [hhi]; exact (Option.some.inj h).symm⟩

/-- **Fewer than half of the values do not pull the median down.** -/
theorem median_ge {mean : Mean α} {values : List α} {m a : α} (h : median mean values = some m)
    (hcount : 2 * values.countP (· < a) < values.length) : a ≤ m := by
  obtain ⟨l, hperm, hs, hm⟩ := median_cases h
  rw [← hperm.countP_eq, ← hperm.length_eq] at hcount
  obtain ⟨hi, hodd, rfl⟩ | ⟨hlo, hi, heven, rfl⟩ := hm
  · exact le_getElem_of_countP hs hi (by omega)
  · have hle : l[l.length / 2 - 1] ≤ l[l.length / 2] :=
      List.pairwise_iff_getElem.mp hs _ _ hlo hi (by omega)
    exact le_trans (le_getElem_of_countP hs hlo (by omega)) (mean.le_of hle)

/-- **Fewer than half of the values do not pull the median up.** -/
theorem median_le {mean : Mean α} {values : List α} {m b : α} (h : median mean values = some m)
    (hcount : 2 * values.countP (b < ·) < values.length) : m ≤ b := by
  obtain ⟨l, hperm, hs, hm⟩ := median_cases h
  rw [← hperm.countP_eq, ← hperm.length_eq] at hcount
  obtain ⟨hi, hodd, rfl⟩ | ⟨hlo, hi, heven, rfl⟩ := hm
  · exact getElem_le_of_countP hs hi (by omega)
  · have hle : l[l.length / 2 - 1] ≤ l[l.length / 2] :=
      List.pairwise_iff_getElem.mp hs _ _ hlo hi (by omega)
    exact le_trans (mean.of_le hle) (getElem_le_of_countP hs hi (by omega))

/-- There is a median as soon as there is a value. -/
theorem median_isSome (mean : Mean α) (values : List α) :
    (median mean values).isSome = true ↔ values ≠ [] := by
  have hlen := (List.perm_insertionSort (· ≤ ·) values).length_eq
  unfold median
  dsimp only
  cases hv : values with
  | nil => simp
  | cons x xs =>
    have hlt : ((x :: xs).insertionSort (· ≤ ·)).length / 2 < ((x :: xs).insertionSort (· ≤ ·)).length := by
      rw [hv, List.length_cons] at hlen
      omega
    rw [List.getElem?_eq_getElem hlt]
    dsimp only
    split
    · simp
    · split <;> simp

end Median
