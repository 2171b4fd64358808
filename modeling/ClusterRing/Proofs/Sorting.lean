import ClusterRing.OrderedSet.Lemmas
import Mathlib.Data.List.Destutter

/-!
# Sorted lists without repetitions

Sorting a list and dropping what stands next to its like leaves each element once, in order. That
is how the elements of an ordered set are listed, whether they come from one list
(`OrderedSet.toList_ofList_eq_sortedOnce`) or from two (`OrderedSet.toList_union_eq_sortedOnce`).
-/

namespace ClusterRing

open Std

variable {α : Type} [Ord α] [TransOrd α]

theorem pairwise_mergeSort_isLE (xs : List α) :
    (xs.mergeSort fun a b => (compare a b).isLE).Pairwise fun a b => (compare a b).isLE := by
  apply List.pairwise_mergeSort
  · intro a b c
    exact TransCmp.isLE_trans
  · intro a b
    rw [Bool.or_eq_true, ← OrientedCmp.isGE_iff_isLE (a := a)]
    cases compare a b <;> simp

variable [LawfulEqOrd α] [DecidableEq α]
variable {xs found : List α} {left right : OrderedSet α} {a : α}

/-- Sorts a list and drops what stands next to its like. -/
def sortedOnce (xs : List α) : List α :=
  (xs.mergeSort fun a b => (compare a b).isLE).destutter (· ≠ ·)

/-- Of equal elements that all stand together one is left. -/
theorem sortedOnce_eq_dedup :
    sortedOnce xs = (xs.mergeSort fun a b => (compare a b).isLE).dedup := by
  have antisymm : Std.Antisymm fun a b : α => (compare a b).isLE = true :=
    ⟨fun _ _ low high => compare_eq_iff_eq.mp (OrientedCmp.isLE_antisymm low high)⟩
  exact (pairwise_mergeSort_isLE xs).destutter_eq_dedup

theorem mem_sortedOnce : a ∈ sortedOnce xs ↔ a ∈ xs := by
  rw [sortedOnce_eq_dedup, List.mem_dedup, List.mem_mergeSort]

theorem ascending_sortedOnce : Ascending (sortedOnce xs) := by
  rw [sortedOnce_eq_dedup]
  have ordered := (pairwise_mergeSort_isLE xs).sublist (List.dedup_sublist _)
  refine (ordered.and (List.nodup_dedup _)).imp ?_
  rintro a b ⟨low, different⟩
  exact (Ordering.isLE_iff_eq_lt_or_eq_eq.mp low).resolve_right
    fun same => different (compare_eq_iff_eq.mp same)

/-- The second set may list its elements in any order, and elements of the first among them. -/
theorem OrderedSet.toList_union_eq_sortedOnce (lists : ∀ a, a ∈ found ↔ a ∈ right) :
    (left ∪ right).toList = sortedOnce (left.toList ++ found) := by
  apply eq_of_ascending (left ∪ right).ascending ascending_sortedOnce
  intro a
  rw [mem_toList, mem_union, mem_sortedOnce, List.mem_append, lists, mem_toList]

theorem length_sortedOnce_le (xs : List α) : (sortedOnce xs).length ≤ xs.length := by
  rw [sortedOnce_eq_dedup]
  exact (List.dedup_sublist _).length_le.trans_eq (List.length_mergeSort xs)

/-- The elements of a list, each once and in order. -/
theorem OrderedSet.toList_ofList_eq_sortedOnce (xs : List α) :
    (ofList xs).toList = sortedOnce xs := by
  apply eq_of_ascending (ofList xs).ascending ascending_sortedOnce
  intro a
  rw [mem_toList, mem_ofList, mem_sortedOnce]

end ClusterRing
