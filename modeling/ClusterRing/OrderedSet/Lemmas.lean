import ClusterRing.OrderedSet.Basic

/-!
# Membership in ordered sets

One lemma for each operation says which elements its result has, and `ext` says
that nothing else matters: ordered sets with the same elements are equal.
Membership is decidable by a search that uses the order.
-/

namespace ClusterRing

universe u

open Std

namespace OrderedSet

variable {α : Type u} [Ord α]

theorem mem_toList {a : α} {set : OrderedSet α} : a ∈ set.toList ↔ a ∈ set := Iff.rfl

@[simp, grind =]
theorem mem_mk {a : α} {xs : List α} {ascending : Ascending xs} :
    a ∈ OrderedSet.mk xs ascending ↔ a ∈ xs := Iff.rfl

@[simp, grind .]
theorem not_mem_empty (a : α) : a ∉ (∅ : OrderedSet α) := List.not_mem_nil

@[simp, grind =]
theorem mem_singleton {a b : α} : a ∈ ({b} : OrderedSet α) ↔ a = b := List.mem_singleton

@[simp, grind =]
theorem mem_filter {a : α} {set : OrderedSet α} {condition : α → Bool} :
    a ∈ set.filter condition ↔ a ∈ set ∧ condition a = true := List.mem_filter

theorem isEmpty_iff {set : OrderedSet α} : set.isEmpty = true ↔ set = ∅ := by
  obtain ⟨xs, ascending⟩ := set
  constructor
  · intro empty
    obtain rfl := List.isEmpty_iff.mp empty
    rfl
  · intro equal
    rw [equal]
    rfl

theorem isEmpty_iff_forall_not_mem {set : OrderedSet α} :
    set.isEmpty = true ↔ ∀ a, a ∉ set := by
  rw [isEmpty, List.isEmpty_iff, List.eq_nil_iff_forall_not_mem]
  rfl

theorem size_ne_zero_iff {set : OrderedSet α} : set.size ≠ 0 ↔ ∃ a, a ∈ set := by
  rw [size, ← Nat.pos_iff_ne_zero, List.length_pos_iff_exists_mem]
  rfl

instance (set : OrderedSet α) (condition : α → Prop) [DecidablePred condition] :
    Decidable (∀ a ∈ set, condition a) :=
  inferInstanceAs (Decidable (∀ a ∈ set.toList, condition a))

section Order

variable [TransOrd α] [LawfulEqOrd α]

omit [LawfulEqOrd α] in
theorem not_mem_of_first {a : α} {xs : List α} (first : ∀ b ∈ xs, compare a b = .lt) : a ∉ xs :=
  fun member => absurd (first a member) (by simp)

omit [LawfulEqOrd α] in
theorem nodup_of_ascending {xs : List α} (ascending : Ascending xs) : xs.Nodup := by
  induction xs with
  | nil => exact .nil
  | cons x xs ih =>
      obtain ⟨x_first, rest⟩ := List.pairwise_cons.mp ascending
      exact List.nodup_cons.mpr ⟨not_mem_of_first x_first, ih rest⟩

omit [LawfulEqOrd α] in
theorem nodup_toList (set : OrderedSet α) : set.toList.Nodup :=
  nodup_of_ascending set.ascending

omit [LawfulEqOrd α] in
/-- What comes before the head of an ascending list is not in the list. -/
theorem not_mem_of_lt_head {a x : α} {xs : List α} (below : compare a x = .lt)
    (ascending : Ascending (x :: xs)) : a ∉ x :: xs := by
  obtain ⟨x_first, -⟩ := List.pairwise_cons.mp ascending
  apply not_mem_of_first
  intro b member
  rcases List.mem_cons.mp member with rfl | later
  · exact below
  · exact TransCmp.lt_trans below (x_first b later)

omit [LawfulEqOrd α] in
/-- Ordered sets with the same elements are equal. -/
@[ext]
theorem ext {left right : OrderedSet α} (same : ∀ a, a ∈ left ↔ a ∈ right) : left = right := by
  obtain ⟨xs, xs_ascending⟩ := left
  obtain ⟨ys, ys_ascending⟩ := right
  have perm : xs.Perm ys :=
    (List.perm_ext_iff_of_nodup (nodup_of_ascending xs_ascending)
      (nodup_of_ascending ys_ascending)).mpr same
  have equal : xs = ys := by
    refine List.Perm.eq_of_pairwise (fun a b _ _ below above => ?_) xs_ascending ys_ascending perm
    rw [OrientedCmp.gt_of_lt below] at above
    exact nomatch above
  subst equal
  rfl

omit [LawfulEqOrd α] in
/-- Ascending lists with the same elements are equal. -/
theorem eq_of_ascending {xs ys : List α} (left : Ascending xs) (right : Ascending ys)
    (same : ∀ a, a ∈ xs ↔ a ∈ ys) : xs = ys :=
  have equal : OrderedSet.mk xs left = OrderedSet.mk ys right := ext same
  congrArg toList equal

theorem listed_iff {a : α} {xs : List α} (ascending : Ascending xs) :
    listed a xs = true ↔ a ∈ xs := by
  induction xs with
  | nil => simp [listed]
  | cons x xs ih =>
      obtain ⟨x_first, rest⟩ := List.pairwise_cons.mp ascending
      rw [listed]
      cases order : compare a x with
      | lt => simpa using not_mem_of_lt_head order ascending
      | eq => simp [Std.compare_eq_iff_eq.mp order]
      | gt =>
          have different : a ≠ x := by
            rintro rfl
            simp at order
          simp [ih rest, different]

instance (a : α) (set : OrderedSet α) : Decidable (a ∈ set) :=
  decidable_of_iff (listed a set.toList = true) (listed_iff set.ascending)

omit [TransOrd α] in
theorem mem_unite {a : α} {xs ys : List α} : a ∈ unite xs ys ↔ a ∈ xs ∨ a ∈ ys := by
  fun_induction unite xs ys with
  | case1 ys => simp
  | case2 xs _ => simp
  | case3 x xs y ys _ ih => grind
  | case4 x xs y ys equal ih =>
      obtain rfl := Std.compare_eq_iff_eq.mp equal
      grind
  | case5 x xs y ys _ ih => grind

theorem mem_subtract {a : α} {xs ys : List α} (left : Ascending xs) (right : Ascending ys) :
    a ∈ subtract xs ys ↔ a ∈ xs ∧ a ∉ ys := by
  fun_induction subtract xs ys with
  | case1 ys => simp
  | case2 xs _ => simp
  | case3 x xs y ys below ih =>
      have absent : x ∉ y :: ys := not_mem_of_lt_head below right
      have ih := ih (List.pairwise_cons.mp left).2 right
      grind
  | case4 x xs y ys equal ih =>
      obtain rfl := Std.compare_eq_iff_eq.mp equal
      obtain ⟨left_first, left_rest⟩ := List.pairwise_cons.mp left
      have absent : x ∉ xs := not_mem_of_first left_first
      have ih := ih left_rest (List.pairwise_cons.mp right).2
      grind
  | case5 x xs y ys above ih =>
      have absent : y ∉ x :: xs := not_mem_of_lt_head (OrientedCmp.gt_iff_lt.mp above) left
      have ih := ih left (List.pairwise_cons.mp right).2
      grind

@[simp, grind =]
theorem mem_union {a : α} {left right : OrderedSet α} : a ∈ left ∪ right ↔ a ∈ left ∨ a ∈ right :=
  mem_unite

@[simp, grind =]
theorem mem_sdiff {a : α} {left right : OrderedSet α} : a ∈ left \ right ↔ a ∈ left ∧ a ∉ right :=
  mem_subtract left.ascending right.ascending

@[simp, grind =]
theorem mem_inter {a : α} {left right : OrderedSet α} : a ∈ left ∩ right ↔ a ∈ left ∧ a ∈ right := by
  change a ∈ left \ (left \ right) ↔ _
  grind

@[simp, grind =]
theorem mem_insert {a b : α} {set : OrderedSet α} : a ∈ set.insert b ↔ a = b ∨ a ∈ set := by
  simp [insert]

@[simp, grind =]
theorem mem_erase {a b : α} {set : OrderedSet α} : a ∈ set.erase b ↔ a ∈ set ∧ a ≠ b := by
  simp [erase]

@[simp, grind =]
theorem mem_ofList {a : α} {xs : List α} : a ∈ ofList xs ↔ a ∈ xs := by
  fun_induction ofList xs with
  | case1 => simp
  | case2 b => simp
  | case3 b c rest half ihFront ihBack =>
      rw [mem_union, ihFront, ihBack, ← List.mem_append, List.take_append_drop]

end Order

end OrderedSet

end ClusterRing
