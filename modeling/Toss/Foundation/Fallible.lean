import Mathlib.Data.List.Perm.Basic

/-!
# Fallible computations

The inversion of `bind` and of `mapM`: how a computation that succeeded, or failed, got there. Proofs about the models take computations apart with these and never
unfold the monad.
-/

universe u

namespace Toss.Foundation

variable {ε : Type*} {α β : Type u}

@[simp] theorem ok_bind (a : α) (f : α → Except ε β) : (Except.ok a >>= f) = f a := rfl

@[simp] theorem error_bind (e : ε) (f : α → Except ε β) :
    ((Except.error e : Except ε α) >>= f) = Except.error e := rfl

@[simp] theorem pure_eq_ok (a : α) : (pure a : Except ε α) = Except.ok a := rfl

variable {f : α → Except ε β} {x : Except ε α} {xs : List α} {ys : List β}

/-- A sequence that succeeded has two successful halves. -/
theorem bind_eq_ok {b : β} :
    (x >>= f) = .ok b ↔ ∃ a, x = .ok a ∧ f a = .ok b := by
  cases x with
  | ok a => simp
  | error e => simp

theorem map_eq_ok {f : α → β} {b : β} :
    x.map f = .ok b ↔ ∃ a, x = .ok a ∧ f a = b := by
  cases x with
  | ok a | error e => simp [Except.map]

theorem toOption_eq_some {a : α} : x.toOption = some a ↔ x = .ok a := by
  cases x with
  | ok b | error e => simp [Except.toOption]

/-- A computation that did not fail returned the value to be had of it. -/
theorem eq_some_getD {o : Option α} (h : o.isSome = true) (fallback : α) :
    o = some (o.getD fallback) := by
  rcases Option.isSome_iff_exists.mp h with ⟨a, rfl⟩
  rfl

theorem guard_eq_some {p : Prop} [Decidable p] {done : Unit} :
    (guard p : Option Unit) = some done ↔ p := by
  by_cases h : p <;> simp [guard, h]

/-- What a fallible map over a list returns, if it does not fail. -/
theorem mapM_eq_some {f : α → Option β} :
    xs.mapM f = some ys ↔ List.Forall₂ (fun x y => f x = some y) xs ys := by
  induction xs generalizing ys with
  | nil => simp [eq_comm]
  | cons x xs ih =>
    simp only [List.mapM_cons, Option.bind_eq_bind, Option.bind_eq_some_iff, Option.pure_def,
      Option.some.injEq, List.forall₂_cons_left_iff, ih]
    constructor
    · rintro ⟨y, hy, rest, hrest, rfl⟩
      exact ⟨y, rest, hy, hrest, rfl⟩
    · rintro ⟨y, rest, hy, hrest, rfl⟩
      exact ⟨y, hy, rest, hrest, rfl⟩

theorem mem_of_mapM {f : α → Option β} (h : xs.mapM f = some ys)
    {y : β} : y ∈ ys ↔ ∃ x ∈ xs, f x = some y := by
  have hall := mapM_eq_some.mp h
  clear h
  induction hall with
  | nil => simp
  | @cons x y' xs ys hy _ ih =>
    simp only [List.mem_cons, exists_eq_or_imp, ih, hy, Option.some.injEq]
    exact or_congr_left eq_comm

/-- A fallible map that does not fail fails nowhere. -/
theorem exists_of_mapM {f : α → Option β} (h : xs.mapM f = some ys)
    {x : α} (hx : x ∈ xs) : ∃ y, f x = some y := by
  have hall := mapM_eq_some.mp h
  clear h
  induction hall with
  | nil => exact absurd hx List.not_mem_nil
  | @cons x' y xs ys hy _ ih =>
    rcases List.mem_cons.mp hx with rfl | hlater
    · exact ⟨y, hy⟩
    · exact ih hlater

/-- A fallible map fails only where its function does. -/
theorem mapM_isSome {f : α → Option β} (h : ∀ x ∈ xs, (f x).isSome = true) :
    (xs.mapM f).isSome = true := by
  induction xs with
  | nil => rfl
  | cons x xs ih =>
    rcases Option.isSome_iff_exists.mp (h x List.mem_cons_self) with ⟨y, hy⟩
    rcases Option.isSome_iff_exists.mp (ih fun other hother => h other (List.mem_cons_of_mem _ hother))
      with ⟨ys, hys⟩
    rw [mapM_eq_some.mpr (.cons hy (mapM_eq_some.mp hys))]
    rfl

/-- A fallible map that fails nowhere is a map. -/
theorem mapM_eq_map {f : α → Option β} {g : α → β}
    (h : ∀ x ∈ xs, f x = some (g x)) : xs.mapM f = some (xs.map g) := by
  rw [mapM_eq_some, List.forall₂_map_right_iff, List.forall₂_same]
  exact h

/-- A fallible map with errors fails where the one without them does. -/
theorem mapM_eq_ok :
    xs.mapM f = .ok ys ↔ List.Forall₂ (fun x y => f x = .ok y) xs ys := by
  induction xs generalizing ys with
  | nil => simp [eq_comm]
  | cons x xs ih =>
    simp only [List.mapM_cons, bind_eq_ok, List.forall₂_cons_left_iff, ih, pure_eq_ok,
      Except.ok.injEq]
    constructor
    · rintro ⟨y, hy, rest, hrest, rfl⟩
      exact ⟨y, rest, hy, hrest, rfl⟩
    · rintro ⟨y, rest, hy, hrest, rfl⟩
      exact ⟨y, hy, rest, hrest, rfl⟩

/-- What a fallible map with errors returns. -/
theorem mem_mapM_ok (h : xs.mapM f = .ok ys) {y : β} : y ∈ ys ↔ ∃ x ∈ xs, f x = .ok y := by
  have hall := mapM_eq_ok.mp h
  clear h
  induction hall with
  | nil => simp
  | @cons x y' xs ys hy _ ih =>
    simp only [List.mem_cons, exists_eq_or_imp, ih, hy, Except.ok.injEq]
    exact or_congr_left eq_comm

theorem exists_of_mapM_ok
    (h : xs.mapM f = .ok ys) {x : α} (hx : x ∈ xs) : ∃ y, f x = .ok y := by
  have hall := mapM_eq_ok.mp h
  clear h
  induction hall with
  | nil => exact absurd hx List.not_mem_nil
  | @cons x' y xs ys hy _ ih =>
    rcases List.mem_cons.mp hx with rfl | hlater
    · exact ⟨y, hy⟩
    · exact ih hlater

theorem exists_mapM_ok (h : ∀ x ∈ xs, ∃ y, f x = .ok y) :
    ∃ ys, xs.mapM f = .ok ys := by
  induction xs with
  | nil => exact ⟨[], rfl⟩
  | cons x xs ih =>
    rcases h x List.mem_cons_self with ⟨y, hy⟩
    rcases ih fun other hother => h other (List.mem_cons_of_mem _ hother) with ⟨ys, hys⟩
    exact ⟨y :: ys, mapM_eq_ok.mpr (.cons hy (mapM_eq_ok.mp hys))⟩

/-- A fallible map that always returns the value itself. -/
theorem mapM_ok_self {f : α → Except ε α} (h : ∀ x ∈ xs, f x = .ok x) :
    xs.mapM f = .ok xs := by
  rw [mapM_eq_ok, List.forall₂_same]
  exact h

/-- The same values in another order are mapped to the same results in another order. -/
theorem mapM_perm {f : α → Option β} {xs xs' : List α} (hperm : xs'.Perm xs)
    (h : xs.mapM f = some ys) : ∃ ys', xs'.mapM f = some ys' ∧ ys'.Perm ys := by
  rcases List.perm_comp_forall₂ hperm (mapM_eq_some.mp h) with ⟨ys', hall, hsame⟩
  exact ⟨ys', mapM_eq_some.mpr hall, hsame⟩

/-- What a fallible fold has done so far, step by step. -/
theorem foldlM_ok {σ : Type u} {f : σ → α → Except ε σ} {P : List α → σ → Prop}
    {s t : σ} (h : xs.foldlM f s = .ok t) (hstart : P [] s)
    (hstep : ∀ (done : List α) (x : α) (s t : σ), P done s → (∃ rest, done ++ x :: rest = xs) →
      f s x = .ok t → P (done ++ [x]) t) : P xs t := by
  have hall : ∀ (rest done : List α) (s : σ), done ++ rest = xs → P done s →
      rest.foldlM f s = .ok t → P xs t := by
    intro rest
    induction rest with
    | nil =>
      intro done s hdone hs h
      rw [List.foldlM_nil, pure_eq_ok, Except.ok.injEq] at h
      rw [List.append_nil] at hdone
      rw [← hdone, ← h]
      exact hs
    | cons x rest ih =>
      intro done s hdone hs h
      rw [List.foldlM_cons] at h
      rcases bind_eq_ok.mp h with ⟨next, hnext, hrest⟩
      exact ih (done ++ [x]) next (by simpa using hdone)
        (hstep done x s next hs ⟨rest, hdone⟩ hnext) hrest
  exact hall xs [] s rfl hstart h

end Toss.Foundation
