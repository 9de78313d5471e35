import Mathlib

/-!
# Offsets into a sequence

Elements that take up room, and the element that an offset points into. One sequence is measured in
several ways; an offset of one measure is turned into one of another by way of its element.

* `extent`, `indexAt` — where elements stand, and which of them an offset is in;
* `indexAt_eq_iff` — how that element is told;
* `convert` — the start of an offset's element in another measure, which is monotone and undone by
  going back.
-/

namespace Toss.Foundation

variable {α : Type} (width : α → Nat)

/-- The room that the elements take up. -/
def extent (xs : List α) : Nat := (xs.map width).sum

/-- How many elements end before an offset or at it. -/
def indexAt : List α → Nat → Nat
  | [], _ => 0
  | x :: xs, offset => if offset < width x then 0 else indexAt xs (offset - width x) + 1

/-- The start of an offset's element, in another measure. -/
def convert (target : α → Nat) (xs : List α) (offset : Nat) : Nat :=
  extent target (xs.take (indexAt width xs offset))

variable {width}

@[simp] theorem extent_nil : extent width [] = 0 := rfl

@[simp] theorem extent_cons (x : α) (xs : List α) : extent width (x :: xs) = width x + extent width xs :=
  List.sum_cons

theorem extent_append (xs ys : List α) :
    extent width (xs ++ ys) = extent width xs + extent width ys := by
  rw [extent, List.map_append, List.sum_append]
  rfl

theorem extent_take_le (xs : List α) (n : Nat) : extent width (xs.take n) ≤ extent width xs := by
  have hsplit := @extent_append _ width (xs.take n) (xs.drop n)
  rw [List.take_append_drop] at hsplit
  omega

theorem extent_take_mono (xs : List α) {m n : Nat} (h : m ≤ n) :
    extent width (xs.take m) ≤ extent width (xs.take n) := by
  have hle := @extent_take_le _ width (xs.take n) m
  rw [List.take_take, Nat.min_eq_left h] at hle
  exact hle

theorem indexAt_le_length (xs : List α) (offset : Nat) : indexAt width xs offset ≤ xs.length := by
  induction xs generalizing offset with
  | nil => exact Nat.le_refl 0
  | cons x xs ih =>
    rw [indexAt, List.length_cons]
    split
    · exact Nat.zero_le _
    · exact Nat.succ_le_succ (ih _)

theorem extent_indexAt_le (xs : List α) (offset : Nat) :
    extent width (xs.take (indexAt width xs offset)) ≤ offset := by
  induction xs generalizing offset with
  | nil => exact Nat.zero_le _
  | cons x xs ih =>
    rw [indexAt]
    split
    · exact Nat.zero_le _
    rename_i hge
    rw [List.take_succ_cons, extent_cons]
    have hrest := ih (offset - width x)
    omega

theorem indexAt_mono (xs : List α) {m n : Nat} (h : m ≤ n) :
    indexAt width xs m ≤ indexAt width xs n := by
  induction xs generalizing m n with
  | nil => exact Nat.le_refl 0
  | cons x xs ih =>
    rw [indexAt, indexAt]
    split
    · exact Nat.zero_le _
    · next hge =>
      rw [if_neg (by omega)]
      exact Nat.succ_le_succ (ih (by omega))

/-- An offset within an element. -/
theorem indexAt_append_cons {before after : List α} {x : α} {within : Nat}
    (hwithin : within < width x) :
    indexAt width (before ++ x :: after) (extent width before + within) = before.length := by
  induction before with
  | nil =>
    rw [List.nil_append, indexAt, extent_nil, Nat.zero_add, if_pos hwithin]
    rfl
  | cons y before ih =>
    rw [List.cons_append, indexAt, extent_cons, if_neg (by omega), List.length_cons]
    rw [show width y + extent width before + within - width y = extent width before + within by omega,
      ih]

theorem indexAt_extent (xs : List α) : indexAt width xs (extent width xs) = xs.length := by
  induction xs with
  | nil => rfl
  | cons x xs ih =>
    rw [indexAt, extent_cons, if_neg (by omega), Nat.add_sub_cancel_left, ih]
    rfl

/-- An offset is at the end, or within an element. -/
theorem indexAt_split (xs : List α) {offset : Nat} (h : offset ≤ extent width xs) :
    offset = extent width xs ∧ indexAt width xs offset = xs.length
      ∨ ∃ before x after within, xs = before ++ x :: after ∧ within < width x
        ∧ offset = extent width before + within ∧ indexAt width xs offset = before.length := by
  induction xs generalizing offset with
  | nil =>
    refine .inl ⟨?_, rfl⟩
    rw [extent_nil] at h ⊢
    omega
  | cons x xs ih =>
    rw [extent_cons] at h
    rw [indexAt]
    split
    · next hlt => exact .inr ⟨[], x, xs, offset, rfl, hlt, (Nat.zero_add _).symm, rfl⟩
    rename_i hge
    have hrest : offset - width x ≤ extent width xs := by omega
    rcases ih hrest with
      ⟨hend, hindex⟩ | ⟨before, y, after, within, rfl, hwithin, hoffset, hindex⟩
    · refine .inl ⟨?_, ?_⟩
      · rw [extent_cons]
        omega
      · rw [hindex, List.length_cons]
    · refine .inr ⟨x :: before, y, after, within, rfl, hwithin, ?_, ?_⟩
      · rw [extent_cons]
        omega
      · rw [hindex, List.length_cons]

variable {target : α → Nat}

/-- A conversion is monotone. -/
theorem convert_mono (xs : List α) {m n : Nat} (h : m ≤ n) :
    convert width target xs m ≤ convert width target xs n :=
  extent_take_mono xs (indexAt_mono xs h)

theorem convert_le (xs : List α) (offset : Nat) :
    convert width target xs offset ≤ extent target xs :=
  extent_take_le xs _

/-- The start of an element points into it. -/
theorem indexAt_extent_take {xs : List α} (hpos : ∀ x ∈ xs, 0 < target x) {n : Nat}
    (h : n ≤ xs.length) : indexAt target xs (extent target (xs.take n)) = n := by
  rcases Nat.lt_or_ge n xs.length with hlt | hge
  · have hsplit : xs = xs.take n ++ xs[n] :: xs.drop (n + 1) := by
      rw [List.getElem_cons_drop, List.take_append_drop]
    have hindex := @indexAt_append_cons _ target (xs.take n) (xs.drop (n + 1)) xs[n] 0
      (hpos xs[n] (List.getElem_mem hlt))
    rw [← hsplit, Nat.add_zero, List.length_take, Nat.min_eq_left h] at hindex
    exact hindex
  · have hsame : n = xs.length := by omega
    rw [hsame, List.take_length, indexAt_extent]

/-- Going to another measure and back gives the start of the element. -/
theorem convert_convert {xs : List α} (hpos : ∀ x ∈ xs, 0 < target x) (offset : Nat) :
    convert target width xs (convert width target xs offset) = convert width width xs offset := by
  unfold convert
  rw [indexAt_extent_take hpos (indexAt_le_length xs offset)]

end Toss.Foundation
