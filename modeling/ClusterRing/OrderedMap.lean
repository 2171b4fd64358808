import ClusterRing.OrderedSet.Lemmas

/-!
# Ordered maps

A finite map kept as the list of its entries with strictly ascending keys, so a key
has one value (`value_unique`). `mem_set` and `mem_erase` say which entries a change
leaves, `get?_set` and `get?_erase` which value it leaves to a key.
-/

namespace ClusterRing

universe u v

open Std

/-- A finite map, stored in strictly ascending order of its keys. -/
structure OrderedMap (α : Type u) (β : Type v) [Ord α] where
  /-- The keys with their values, smallest key first. -/
  entries : List (α × β)
  /-- The order is strict, so no key is listed twice. -/
  ascending : entries.Pairwise fun earlier later => compare earlier.1 later.1 = .lt

namespace OrderedMap

variable {α : Type u} {β : Type v} [Ord α]

/-- Membership is membership in the list of entries. -/
instance : Membership (α × β) (OrderedMap α β) where
  mem map entry := entry ∈ map.entries

instance : EmptyCollection (OrderedMap α β) where
  emptyCollection := ⟨[], .nil⟩

/-- How many keys the map has. -/
def size (map : OrderedMap α β) : Nat :=
  map.entries.length

/-- The value of a key, if it has one. -/
def get? [DecidableEq α] (map : OrderedMap α β) (key : α) : Option β :=
  (map.entries.find? fun entry => entry.1 = key).map Prod.snd

/-- The map without a key. -/
def erase [DecidableEq α] (map : OrderedMap α β) (key : α) : OrderedMap α β where
  entries := map.entries.filter fun entry => entry.1 ≠ key
  ascending := map.ascending.filter _

variable {map : OrderedMap α β} {key other : α} {value held : β}

@[simp]
theorem mem_entries {entry : α × β} : entry ∈ map.entries ↔ entry ∈ map := Iff.rfl

@[simp]
theorem not_mem_empty (entry : α × β) : entry ∉ (∅ : OrderedMap α β) := List.not_mem_nil

@[simp]
theorem mem_erase [DecidableEq α] :
    (key, value) ∈ map.erase other ↔ key ≠ other ∧ (key, value) ∈ map := by
  simp [← mem_entries, erase, and_comm]

variable [TransOrd α]

theorem keys_apart (map : OrderedMap α β) :
    map.entries.Pairwise fun earlier later => earlier.1 ≠ later.1 := by
  refine map.ascending.imp fun below same => ?_
  simp [same] at below

/-- Maps with the same entries are equal. -/
@[ext]
theorem ext {left right : OrderedMap α β} (same : ∀ entry, entry ∈ left ↔ entry ∈ right) :
    left = right := by
  have nodup (map : OrderedMap α β) : map.entries.Nodup :=
    map.keys_apart.imp fun apart equal => apart (congrArg Prod.fst equal)
  have perm : left.entries.Perm right.entries :=
    (List.perm_ext_iff_of_nodup (nodup left) (nodup right)).mpr same
  have equal : left.entries = right.entries := by
    refine List.Perm.eq_of_pairwise (fun _ _ _ _ below above => ?_) left.ascending
      right.ascending perm
    rw [OrientedCmp.gt_of_lt below] at above
    exact nomatch above
  cases left
  cases right
  subst equal
  rfl

/-- A key has one value. -/
theorem value_unique (member : (key, value) ∈ map) (again : (key, held) ∈ map) : value = held := by
  have apart := map.keys_apart
  rcases map with ⟨entries, ascending⟩
  change (key, value) ∈ entries at member
  change (key, held) ∈ entries at again
  change entries.Pairwise _ at apart
  clear ascending
  induction entries with
  | nil => simp at member
  | cons first rest ih =>
      rcases List.pairwise_cons.mp apart with ⟨alone, apart⟩
      rcases List.mem_cons.mp member with rfl | early
      · rcases List.mem_cons.mp again with same | late
        · exact (Prod.mk.inj same).2.symm
        · exact (alone _ late rfl).elim
      · rcases List.mem_cons.mp again with rfl | late
        · exact (alone _ early rfl).elim
        · exact ih early late apart

theorem get?_eq_some_iff [DecidableEq α] : map.get? key = some value ↔ (key, value) ∈ map := by
  constructor
  · intro found
    rcases Option.map_eq_some_iff.mp found with ⟨⟨other, held⟩, first, rfl⟩
    obtain rfl : other = key := by simpa using List.find?_some first
    exact List.mem_of_find?_eq_some first
  · intro member
    cases found : map.get? key with
    | none => simpa using List.find?_eq_none.mp (Option.map_eq_none_iff.mp found) _ member
    | some held =>
        rcases Option.map_eq_some_iff.mp found with ⟨⟨other, held⟩, first, rfl⟩
        obtain rfl : other = key := by simpa using List.find?_some first
        rw [value_unique member (List.mem_of_find?_eq_some first)]

/-- The map with a value for a key, whether or not the key had another one. -/
def set (map : OrderedMap α β) (key : α) (value : β) : OrderedMap α β where
  entries := map.entries.filter (fun entry => (compare entry.1 key).isLT) ++
    (key, value) :: map.entries.filter fun entry => (compare key entry.1).isLT
  ascending := by
    rw [List.pairwise_append, List.pairwise_cons]
    refine ⟨map.ascending.filter _, ⟨by simp [Ordering.isLT_iff_eq_lt], map.ascending.filter _⟩, ?_⟩
    intro lower below upper above
    simp [Ordering.isLT_iff_eq_lt] at below above
    rcases above with rfl | above
    · exact below.2
    · exact TransCmp.lt_trans below.2 above.2

@[simp]
theorem mem_set [LawfulEqOrd α] : (key, value) ∈ map.set other held ↔
    key = other ∧ value = held ∨ key ≠ other ∧ (key, value) ∈ map := by
  have sides : key ≠ other ↔ compare key other = .lt ∨ compare other key = .lt := by
    rw [← OrientedCmp.gt_iff_lt (a := key), ne_eq, ← Std.compare_eq_iff_eq]
    cases compare key other <;> simp
  rw [sides, ← mem_entries, set, List.mem_append, List.mem_cons, List.mem_filter, List.mem_filter]
  simp [Ordering.isLT_iff_eq_lt]
  constructor
  · rintro (⟨member, below⟩ | same | ⟨member, above⟩)
    · exact .inr ⟨.inl below, member⟩
    · exact .inl same
    · exact .inr ⟨.inr above, member⟩
  · rintro (same | ⟨below | above, member⟩)
    · exact .inr (.inl same)
    · exact .inl ⟨member, below⟩
    · exact .inr (.inr ⟨member, above⟩)

section Lookup

variable [DecidableEq α]

theorem get?_set [LawfulEqOrd α] (map : OrderedMap α β) (key other : α) (value : β) :
    (map.set key value).get? other = if other = key then some value else map.get? other := by
  ext held
  rw [get?_eq_some_iff, mem_set]
  split
  · next same => simp [same, eq_comm]
  · next apart => simp [apart, get?_eq_some_iff]

theorem get?_erase (map : OrderedMap α β) (key other : α) :
    (map.erase key).get? other = if other = key then none else map.get? other := by
  ext held
  rw [get?_eq_some_iff, mem_erase]
  split
  · next same => simp [same]
  · next apart => simp [apart, get?_eq_some_iff]

theorem get?_foldl_erase (keys : List α) (other : α) :
    (keys.foldl erase map).get? other = if other ∈ keys then none else map.get? other := by
  induction keys generalizing map with
  | nil => simp
  | cons first rest ih =>
      rw [List.foldl_cons, ih, get?_erase]
      by_cases here : other = first <;> simp [here]

end Lookup

end OrderedMap

end ClusterRing
