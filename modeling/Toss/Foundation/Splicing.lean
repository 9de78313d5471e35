import Mathlib.Data.List.Nodup

/-!
# Changes of a list by offsets

A change replaces what stands between two offsets. Several changes of one list are told in the
offsets of the list they are all made of, as editors do; then the last of them goes first.

* `Change.apply`, `applyChanges` — one change, and several at once;
* `Separated` — changes in ascending order that do not touch each other;
* `applyChanges_sort` — applied one by one from the last, in whatever order they are given;
* `applyChanges_map` — changes and a map of the elements.
-/

namespace Toss.Foundation

variable {α β : Type*}

/-- `insert` in place of what stands from `start` to `stop`. -/
structure Change (α : Type*) where
  start : Nat
  stop : Nat
  insert : List α
deriving DecidableEq, Repr

namespace Change

def apply (change : Change α) (xs : List α) : List α :=
  xs.take change.start ++ change.insert ++ xs.drop (max change.start change.stop)

/-- The change with other elements. -/
def mapInsert (f : List α → List β) (change : Change α) : Change β :=
  ⟨change.start, change.stop, f change.insert⟩

/-- The change within a list. -/
def Within (length : Nat) (change : Change α) : Prop :=
  change.start ≤ change.stop ∧ change.stop ≤ length

instance (length : Nat) (change : Change α) : Decidable (change.Within length) :=
  inferInstanceAs (Decidable (_ ∧ _))

theorem map_apply (f : α → β) (change : Change α) (xs : List α) :
    (change.apply xs).map f = (change.mapInsert (List.map f)).apply (xs.map f) := by
  simp [apply, mapInsert, List.map_take, List.map_drop]

end Change

/-- Changes that are all told in offsets of the list. -/
def applyChanges (changes : List (Change α)) (xs : List α) : List α :=
  changes.foldr Change.apply xs

/-- The changes ascend and do not touch each other, within a list of this length. -/
structure Separated (length : Nat) (changes : List (Change α)) : Prop where
  ascending : changes.Pairwise fun a b => a.stop < b.start
  within : ∀ change ∈ changes, change.Within length

instance (length : Nat) (changes : List (Change α)) : Decidable (Separated length changes) :=
  decidable_of_iff ((changes.Pairwise fun a b => a.stop < b.start)
      ∧ ∀ change ∈ changes, change.Within length)
    ⟨fun h => ⟨h.1, h.2⟩, fun h => ⟨h.ascending, h.within⟩⟩

theorem applyChanges_map (f : α → β) (changes : List (Change α)) (xs : List α) :
    (applyChanges changes xs).map f
      = applyChanges (changes.map (Change.mapInsert (List.map f))) (xs.map f) := by
  induction changes with
  | nil => rfl
  | cons change changes ih =>
    show (change.apply (applyChanges changes xs)).map f = _
    rw [Change.map_apply, ih]
    rfl

/-- The comparison of a sort by descending offsets. -/
def descending (a b : Change α) : Bool :=
  b.start < a.start || (b.start = a.start && b.stop ≤ a.stop)

variable {changes : List (Change α)} {length : Nat}

theorem Separated.starts
    (h : Separated length changes) : changes.Pairwise fun a b => a.start < b.start := by
  refine h.ascending.imp_of_mem ?_
  intro a b ha _ hlt
  exact Nat.lt_of_le_of_lt (h.within a ha).1 hlt

/-- Sorted by descending offsets, separated changes are in reverse order. -/
theorem Separated.mergeSort
    (h : Separated length changes) : changes.mergeSort descending = changes.reverse := by
  have hnodup : (changes.map (·.start)).Nodup := by
    rw [List.nodup_iff_pairwise_ne, List.pairwise_map]
    exact h.starts.imp Nat.ne_of_lt
  refine List.Perm.eq_of_pairwise ?_ (List.pairwise_mergeSort ?_ ?_ changes)
    (List.pairwise_reverse.mpr ?_) ((List.mergeSort_perm _ _).trans (List.reverse_perm _).symm)
  · intro a b ha hb hab hba
    refine List.inj_on_of_nodup_map hnodup (List.mem_mergeSort.mp ha) (List.mem_reverse.mp hb) ?_
    simp only [descending, Bool.or_eq_true, Bool.and_eq_true, decide_eq_true_eq] at hab hba
    omega
  · intro a b c hab hbc
    simp only [descending, Bool.or_eq_true, Bool.and_eq_true, decide_eq_true_eq] at hab hbc ⊢
    omega
  · intro a b
    simp only [descending, Bool.or_eq_true, Bool.and_eq_true, decide_eq_true_eq]
    omega
  · refine h.starts.imp ?_
    intro a b hlt
    simp only [descending, Bool.or_eq_true, Bool.and_eq_true, decide_eq_true_eq]
    exact .inl hlt

/-- Applied one by one from the last, separated changes are applied at once. -/
theorem applyChanges_sort (h : Separated length changes) (xs : List α) :
    (changes.mergeSort descending).foldl (fun xs change => change.apply xs) xs
      = applyChanges changes xs := by
  rw [h.mergeSort, List.foldl_reverse]
  rfl

end Toss.Foundation
