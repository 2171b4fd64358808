/-!
# Ordered sets

A finite set kept as the list of its elements in strictly ascending order. The
list is determined by the elements, so two ordered sets with the same elements
are equal, and every question about a set can be asked of its membership.

`unite` and `subtract` walk two ascending lists side by side; union, difference,
insertion and removal are built from them. Membership in each result is stated
in `ClusterRing.OrderedSet.Lemmas`.
-/

namespace ClusterRing

universe u

open Std

/-- Each element of the list comes before all later ones. -/
def Ascending {α : Type u} [Ord α] (xs : List α) : Prop :=
  xs.Pairwise (fun earlier later => compare earlier later = .lt)

/-- A finite set, stored in strictly ascending order. -/
structure OrderedSet (α : Type u) [Ord α] where
  /-- The elements, smallest first. -/
  toList : List α
  /-- The order is strict, so no element is listed twice. -/
  ascending : Ascending toList

namespace OrderedSet

variable {α : Type u} [Ord α]

/-- The elements of two ascending lists, each listed once. -/
def unite (xs ys : List α) : List α :=
  match xs, ys with
  | [], ys => ys
  | xs, [] => xs
  | x :: xs, y :: ys =>
    match compare x y with
    | .lt => x :: unite xs (y :: ys)
    | .eq => x :: unite xs ys
    | .gt => y :: unite (x :: xs) ys
termination_by xs.length + ys.length

/-- The elements of the first ascending list that the second does not list. -/
def subtract (xs ys : List α) : List α :=
  match xs, ys with
  | [], _ => []
  | xs, [] => xs
  | x :: xs, y :: ys =>
    match compare x y with
    | .lt => x :: subtract xs (y :: ys)
    | .eq => subtract xs ys
    | .gt => subtract (x :: xs) ys
termination_by xs.length + ys.length

/-- Whether an ascending list holds an element; the search stops at the first larger one. -/
def listed (a : α) : List α → Bool
  | [] => false
  | x :: xs =>
    match compare a x with
    | .lt => false
    | .eq => true
    | .gt => listed a xs

theorem mem_or_mem_of_mem_unite {a : α} {xs ys : List α} (member : a ∈ unite xs ys) :
    a ∈ xs ∨ a ∈ ys := by
  fun_induction unite xs ys <;> grind

theorem mem_of_mem_subtract {a : α} {xs ys : List α} (member : a ∈ subtract xs ys) : a ∈ xs := by
  fun_induction subtract xs ys <;> grind

theorem ascending_subtract {xs ys : List α} (left : Ascending xs) :
    Ascending (subtract xs ys) := by
  unfold Ascending at *
  fun_induction subtract xs ys with
  | case1 ys => exact .nil
  | case2 xs _ => exact left
  | case3 x xs y ys below ih =>
      obtain ⟨x_first, left⟩ := List.pairwise_cons.mp left
      exact List.pairwise_cons.mpr
        ⟨fun a member => x_first a (mem_of_mem_subtract member), ih left⟩
  | case4 x xs y ys equal ih => exact ih (List.pairwise_cons.mp left).2
  | case5 x xs y ys above ih => exact ih left

section Order

variable [TransOrd α] [LawfulEqOrd α]

theorem ascending_unite {xs ys : List α} (left : Ascending xs) (right : Ascending ys) :
    Ascending (unite xs ys) := by
  unfold Ascending at *
  fun_induction unite xs ys with
  | case1 ys => exact right
  | case2 xs _ => exact left
  | case3 x xs y ys below ih =>
      obtain ⟨x_first, left⟩ := List.pairwise_cons.mp left
      refine List.pairwise_cons.mpr ⟨fun a member => ?_, ih left right⟩
      obtain ⟨y_first, -⟩ := List.pairwise_cons.mp right
      rcases mem_or_mem_of_mem_unite member with inLeft | inRight
      · exact x_first a inLeft
      · rcases List.mem_cons.mp inRight with rfl | later
        · exact below
        · exact TransCmp.lt_trans below (y_first a later)
  | case4 x xs y ys equal ih =>
      obtain rfl := Std.compare_eq_iff_eq.mp equal
      obtain ⟨left_first, left⟩ := List.pairwise_cons.mp left
      obtain ⟨right_first, right⟩ := List.pairwise_cons.mp right
      refine List.pairwise_cons.mpr ⟨fun a member => ?_, ih left right⟩
      exact (mem_or_mem_of_mem_unite member).elim (left_first a) (right_first a)
  | case5 x xs y ys above ih =>
      obtain ⟨y_first, right⟩ := List.pairwise_cons.mp right
      refine List.pairwise_cons.mpr ⟨fun a member => ?_, ih left right⟩
      obtain ⟨x_first, -⟩ := List.pairwise_cons.mp left
      have above := OrientedCmp.gt_iff_lt.mp above
      rcases mem_or_mem_of_mem_unite member with inLeft | inRight
      · rcases List.mem_cons.mp inLeft with rfl | later
        · exact above
        · exact TransCmp.lt_trans above (x_first a later)
      · exact y_first a inRight

end Order

/-! ### The set operations -/

/-- Membership is membership in the list of elements. -/
instance : Membership α (OrderedSet α) where
  mem set a := a ∈ set.toList

instance : EmptyCollection (OrderedSet α) where
  emptyCollection := ⟨[], .nil⟩

instance : Inhabited (OrderedSet α) where
  default := ∅

instance : Singleton α (OrderedSet α) where
  singleton a := ⟨[a], List.pairwise_singleton _ a⟩

instance [DecidableEq α] : DecidableEq (OrderedSet α) := fun left right =>
  if same : left.toList = right.toList then
    isTrue (by cases left; cases right; cases same; rfl)
  else
    isFalse (fun equal => same (congrArg toList equal))

/-- How many elements the set has. -/
def size (set : OrderedSet α) : Nat :=
  set.toList.length

/-- Whether the set has no element. -/
def isEmpty (set : OrderedSet α) : Bool :=
  set.toList.isEmpty

/-- The elements that satisfy a condition. -/
def filter (set : OrderedSet α) (condition : α → Bool) : OrderedSet α where
  toList := set.toList.filter condition
  ascending := set.ascending.sublist List.filter_sublist

variable [TransOrd α] [LawfulEqOrd α]

instance : Union (OrderedSet α) where
  union left right :=
    ⟨unite left.toList right.toList, ascending_unite left.ascending right.ascending⟩

instance : SDiff (OrderedSet α) where
  sdiff left right :=
    ⟨subtract left.toList right.toList, ascending_subtract left.ascending⟩

instance : Inter (OrderedSet α) where
  inter left right := left \ (left \ right)

/-- The set with one more element; nothing changes if it is there already. -/
def insert (set : OrderedSet α) (a : α) : OrderedSet α :=
  {a} ∪ set

/-- The set without one element; nothing changes if it is not there. -/
def erase (set : OrderedSet α) (a : α) : OrderedSet α :=
  set \ {a}

/-- The elements of any list, in order and without repetition. -/
def ofList (xs : List α) : OrderedSet α :=
  match xs with
  | [] => ∅
  | [a] => {a}
  | a :: b :: rest =>
    let half := (rest.length + 2) / 2
    ofList ((a :: b :: rest).take half) ∪ ofList ((a :: b :: rest).drop half)
termination_by xs.length

end OrderedSet

end ClusterRing
